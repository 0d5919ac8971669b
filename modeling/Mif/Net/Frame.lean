import Mif.Lib.BigEndian
import Mif.Net.Client

set_option autoImplicit false

/- The framing filters of the TCP chain: a 32-bit big-endian length before the
payload. Chunks come as the socket delivers them. -/
namespace Mif.Net

/-- `sizeof(std::int32_t)`. -/
abbrev headerBytes : Nat := 4

namespace FrameWriter

/-- `FrameWriter::ProcessData`: the buffer given to `Post`. The size is cut to
the 32 bits of the header. -/
def frame (buffer : Buffer) : Buffer :=
  let frameBytes : BitVec 32 := BitVec.ofNat 32 buffer.length
  BigEndian.bytes headerBytes frameBytes.toNat ++ buffer

/-- The bytes that leave when the payloads are processed one by one. -/
def wire (payloads : List Buffer) : Buffer := payloads.flatMap frame

end FrameWriter

namespace FrameReader

/-- What one call cuts out of the retained bytes. -/
inductive Cut
  | incomplete
  | frame (payload : Buffer)
  | invalid (access : Undefined)
  deriving DecidableEq, Repr

/-- The header as `std::int32_t`, after `big_to_native_inplace`. -/
def header (buffer : Buffer) : BitVec 32 :=
  BitVec.ofNat 32 (BigEndian.value (buffer.take headerBytes))

/-- `FrameReader::Impl::OnData` up to the call of `Post`: the new `m_buffer` and
the frame that was cut out. The signed length is converted to `std::size_t` by
sign extension before the sum, which wraps; the cut itself uses it signed. -/
def cut (held chunk : Buffer) : Buffer × Cut :=
  let buffer := if held.isEmpty then chunk else held ++ chunk
  if buffer.length < headerBytes then (buffer, .incomplete)
  else
    let frameBytes := header buffer
    if buffer.length < (frameBytes.signExtend 64 + BitVec.ofNat 64 headerBytes).toNat then
      (buffer, .incomplete)
    else
      let stop : Int := headerBytes + frameBytes.toInt
      -- `assign(begin, end)` with `end` before `begin`
      if stop < headerBytes then (buffer, .invalid .invalidRange)
      else
        let payload := (buffer.take stop.toNat).drop headerBytes
        if stop = buffer.length then ([], .frame payload)
        else (buffer.drop stop.toNat, .frame payload)

end FrameReader

/-- `Clients::FrameReader` with the buffer of its `Impl`. -/
structure FrameReader where
  client : Client
  buffer : Buffer
  deriving DecidableEq, Repr

namespace FrameReader

def new : FrameReader := ⟨.new, []⟩

/-- One call: the reader after it, the buffers it gave to `Post`, and how the
call failed if it did. -/
structure Effect where
  reader : FrameReader
  posted : List Buffer
  fault : Option Fault
  deriving DecidableEq, Repr

/-- `FrameReader::OnData`. `publish` is the publisher behind `Post`, with the
exception it throws on a buffer if it does. -/
def onData (publish : Buffer → Option String) (reader : FrameReader) (chunk : Buffer) : Effect :=
  match reader.client.onData chunk with
  | .ignored => ⟨reader, [], none⟩
  | .refused what => ⟨reader, [], some (.exception what)⟩
  | .processed =>
      match cut reader.buffer chunk with
      | (held, .incomplete) => ⟨{ reader with buffer := held }, [], none⟩
      | (held, .invalid access) => ⟨{ reader with buffer := held }, [], some (.undefined access)⟩
      | (held, .frame payload) =>
          let thrown := if reader.client.post then publish payload else none
          ⟨{ reader with buffer := held }, [payload], thrown.map Fault.exception⟩

/-- The chunks handed in order to the reader, as by `Tcp::Detail::Session::DoRead`:
an exception of one call is logged and the next chunk follows, while nothing is
known after an undefined access. -/
def feed (publish : Buffer → Option String) : FrameReader → List Buffer → Effect
  | reader, [] => ⟨reader, [], none⟩
  | reader, chunk :: rest =>
      let first := reader.onData publish chunk
      match first.fault with
      | some (.undefined _) => first
      | _ =>
          let last := feed publish first.reader rest
          ⟨last.reader, first.posted ++ last.posted, last.fault⟩

end FrameReader

end Mif.Net
