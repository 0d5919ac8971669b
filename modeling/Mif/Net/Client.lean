import Mif.Common.Fault

set_option autoImplicit false

namespace Mif.Net

/-- `Common::Buffer`. Only the bits of a `char` matter here. -/
abbrev Buffer := List UInt8

/-- `Mif::Net::Client`: the closed mark and whether the two weak pointers can
still be locked. -/
structure Client where
  markedAsClosed : Bool
  control : Bool
  publisher : Bool
  deriving DecidableEq, Repr

namespace Client

/-- A client in a living session. -/
def new : Client := ⟨false, true, true⟩

def isClosed (client : Client) : Bool := client.markedAsClosed

/-- What `OnData` does with a buffer. -/
inductive Admission
  | ignored
  | refused (what : String)
  | processed
  deriving DecidableEq, Repr

/-- `Client::OnData` up to the call of `ProcessData`. -/
def onData (client : Client) (buffer : Buffer) : Admission :=
  if client.markedAsClosed then .ignored
  else if buffer.isEmpty then .refused "[Mif::Net::Client::OnData] No data."
  else .processed

/-- `Client::OnClose`: the new client, and whether the `Close` hook runs. -/
def onClose (client : Client) : Client × Bool :=
  let needToClose := client.markedAsClosed
  ({ client with markedAsClosed := true }, needToClose)

/-- `Client::CloseMe`: the returned value. The control is called when it is true. -/
def closeMe (client : Client) : Bool :=
  if client.markedAsClosed then false else client.control

/-- `Client::Post`: the returned value. The publisher gets the buffer when it is true. -/
def post (client : Client) : Bool :=
  if client.markedAsClosed then false else client.publisher

theorem new_onData (buffer : Buffer) (nonempty : buffer ≠ []) :
    new.onData buffer = .processed := by
  have filled : buffer.isEmpty = false := List.isEmpty_eq_false_iff.mpr nonempty
  simp [onData, new, filled]

/-- A closed client neither processes nor posts data. -/
theorem closed_is_silent (client : Client) (closed : client.isClosed = true) (buffer : Buffer) :
    client.onData buffer = .ignored ∧ client.post = false ∧ client.closeMe = false := by
  have marked : client.markedAsClosed = true := closed
  simp [onData, post, closeMe, marked]

end Client

end Mif.Net
