import Mif.Net.Client

set_option autoImplicit false

/- The close notification through a chain of clients. The chain is a client of
the transport and owns the clients of its holders. -/
namespace Mif.Net

/-- A client inside a chain, with the number of times its `Close` hook has run. -/
structure ChainItem where
  client : Client
  closeCalls : Nat
  deriving DecidableEq, Repr

namespace ChainItem

def new : ChainItem := ⟨.new, 0⟩

/-- `Client::OnClose` with the hook it may run. -/
def onClose (item : ChainItem) : ChainItem :=
  match item.client.onClose with
  | (client, true) => ⟨client, item.closeCalls + 1⟩
  | (client, false) => ⟨client, item.closeCalls⟩

end ChainItem

/-- `ClientsChain<TClients ...>`: the chain as a client and its holders from the
first to the last. The final `ChainClient` has no state and ignores `OnClose`. -/
structure ClientsChain where
  self : ChainItem
  clients : List ChainItem
  deriving DecidableEq, Repr

namespace ClientsChain

/-- A chain as `CreateChain` builds it. -/
def new (size : Nat) : ClientsChain := ⟨.new, List.replicate size .new⟩

/-- `Holder::OnClose`: its own client first, then the next holder. -/
def holderOnClose : List ChainItem → List ChainItem
  | [] => []
  | item :: next => item.onClose :: holderOnClose next

/-- `ClientsChain::OnClose`, whose `Close` hook notifies the first holder. -/
def onClose (chain : ClientsChain) : ClientsChain :=
  match chain.self.client.onClose with
  | (client, true) => ⟨⟨client, chain.self.closeCalls + 1⟩, holderOnClose chain.clients⟩
  | (client, false) => ⟨⟨client, chain.self.closeCalls⟩, chain.clients⟩

/-- The chain after the transport has called `OnClose` so many times. -/
def closing (chain : ClientsChain) : Nat → ClientsChain
  | 0 => chain
  | times + 1 => (chain.closing times).onClose

/-- The chain and every client in it report `IsClosed() = true`. -/
def AllClosed (chain : ClientsChain) : Prop :=
  chain.self.client.isClosed = true ∧ ∀ item ∈ chain.clients, item.client.isClosed = true

/-- Closing `times` times tells every client at the first call, and has run each
client's hook exactly once at the end. -/
def PropagatesClose (size times : Nat) : Prop :=
  ((new size).closing 1).AllClosed ∧
    ∀ item ∈ ((new size).closing times).clients, item.closeCalls = 1

theorem holderOnClose_eq_map (items : List ChainItem) :
    holderOnClose items = items.map ChainItem.onClose := by
  induction items with
  | nil => rfl
  | cons item rest ih => simp only [holderOnClose, ih, List.map_cons]

/-- A chain whose own mark is `closed` and whose clients are all in one state. -/
def uniform (closed : Bool) (hooks size : Nat) (item : ChainItem) : ClientsChain :=
  ⟨⟨{ Client.new with markedAsClosed := closed }, hooks⟩, List.replicate size item⟩

/-- The first call only sets the mark of the chain itself. -/
theorem onClose_open (hooks size : Nat) (item : ChainItem) :
    (uniform false hooks size item).onClose = uniform true hooks size item := rfl

theorem onClose_closed (hooks size : Nat) (item : ChainItem) :
    (uniform true hooks size item).onClose = uniform true (hooks + 1) size item.onClose := by
  have passed : holderOnClose (List.replicate size item) = List.replicate size item.onClose := by
    rw [holderOnClose_eq_map, List.map_replicate]
  change ClientsChain.mk _ (holderOnClose (List.replicate size item)) = _
  rw [passed]
  rfl

/-- A client that has been told `times` times: the mark comes with the first
call, and the hook with every later one. -/
def told (times : Nat) : ChainItem :=
  ⟨{ Client.new with markedAsClosed := 0 < times }, times - 1⟩

theorem told_onClose (times : Nat) : (told times).onClose = told (times + 1) := by
  cases times with
  | zero => rfl
  | succ times => simp [told, ChainItem.onClose, Client.onClose]

/-- Every client hears of a close one call later than the chain. -/
theorem closing_succ (size times : Nat) :
    (new size).closing (times + 1) = uniform true times size (told times) := by
  induction times with
  | zero => exact onClose_open 0 size .new
  | succ times ih =>
      rw [closing, ih, onClose_closed, told_onClose]

/-- The inverted test in `Client::OnClose` keeps the first notification from the
clients of the chain, so only a chain without clients is closed properly. -/
theorem propagatesClose_iff_no_clients (size times : Nat) (called : 1 ≤ times) :
    PropagatesClose size times ↔ size = 0 := by
  obtain ⟨later, rfl⟩ : ∃ later, times = later + 1 := ⟨times - 1, by omega⟩
  unfold PropagatesClose AllClosed
  rw [closing_succ size 0, closing_succ size later]
  constructor
  · rintro ⟨⟨-, closed⟩, -⟩
    by_contra filled
    have first : told 0 ∈ (uniform true 0 size (told 0)).clients :=
      List.mem_replicate.mpr ⟨filled, rfl⟩
    exact absurd (closed _ first) (by decide)
  · rintro rfl
    refine ⟨⟨rfl, ?_⟩, ?_⟩
    · intro item member
      exact absurd member List.not_mem_nil
    · intro item member
      exact absurd member List.not_mem_nil

/-- The chain without clients. -/
theorem propagatesClose_empty : PropagatesClose 0 1 :=
  (propagatesClose_iff_no_clients 0 1 (by decide)).mpr rfl

/-- One client and one `OnClose`: the client stays open and its hook does not run. -/
theorem first_close_is_lost :
    ((new 1).closing 1).clients = [⟨.new, 0⟩] ∧ ¬ PropagatesClose 1 1 := by
  refine ⟨by decide, ?_⟩
  rintro ⟨⟨-, closed⟩, -⟩
  revert closed
  decide

end ClientsChain

end Mif.Net
