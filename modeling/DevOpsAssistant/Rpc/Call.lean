import Mathlib.Logic.Relation
import Mathlib.Tactic.Common

/-!
# Clients of one server

A client sends requests to a server and goes on with the answers. Several clients share a server
that serves one request at a time, in any order.

* `Call`: the program of a client; `Call.run`: a client alone.
* `Net`: a server with its clients; `Net.turn`: one client has its next request answered.
* `Net.Step`, `Net.ReachWith`: interleaved runs; **`Net.Step.elim`**.
-/

namespace Rpc

/-- A client: it has ended, or it sends a request and goes on with the answer. -/
inductive Call (Q A α : Type) : Type where
  | done (a : α)
  | send (q : Q) (k : A → Call Q A α)

namespace Call

variable {Q A α β γ S : Type}

/-- Sequencing. -/
def bind : Call Q A α → (α → Call Q A β) → Call Q A β
  | done a, g => g a
  | send q k, g => send q fun a => (k a).bind g

instance : Monad (Call Q A) where
  pure := done
  bind := bind

@[simp] theorem pure_eq (a : α) : (pure a : Call Q A α) = done a := rfl

@[simp] theorem bind_eq (c : Call Q A α) (g : α → Call Q A β) : c >>= g = c.bind g := rfl

/-- One request. -/
def request (q : Q) : Call Q A A := send q done

variable (answer : Q → S → A × S)

/-- A client that no other client runs beside. -/
def run : Call Q A α → S → α × S
  | done a, s => (a, s)
  | send q k, s => (k (answer q s).1).run (answer q s).2

@[simp] theorem run_done (a : α) (s : S) : (done a : Call Q A α).run answer s = (a, s) := rfl

@[simp] theorem run_send (q : Q) (k : A → Call Q A α) (s : S) :
    (send q k).run answer s = (k (answer q s).1).run answer (answer q s).2 := rfl

end Call

variable {Q A α S : Type}

/-- A server and its clients. -/
structure Net (S Q A α : Type) where
  server : S
  clients : List (Call Q A α)

namespace Net

variable (answer : Q → S → A × S)

/-- The request of the `n`th client is answered. -/
def turn (net : Net S Q A α) (n : ℕ) : Option (Net S Q A α) :=
  match net.clients[n]? with
  | some (.send q k) =>
    some ⟨(answer q net.server).2, net.clients.set n (k (answer q net.server).1)⟩
  | _ => none

/-- One step of an interleaved run. -/
def Step (net net' : Net S Q A α) : Prop := ∃ n, net.turn answer n = some net'

/-- The states interleaved runs lead to when each step is taken from a state that satisfies `G`. -/
def ReachWith (G : S → Prop) : Net S Q A α → Net S Q A α → Prop :=
  Relation.ReflTransGen fun net net' => Step answer net net' ∧ G net.server

/-- The state after turns of the clients `ns`, if each of them can be made in a state that
satisfies `p`. -/
def turns (p : S → Bool) (net : Net S Q A α) : List ℕ → Option (Net S Q A α)
  | [] => some net
  | n :: ns => if p net.server then (net.turn answer n).bind fun net' => net'.turns p ns else none

variable {answer} {net net' : Net S Q A α}

/-- **What one step does**: one client goes on with the answer to its request. -/
theorem Step.elim (h : Step answer net net') : ∃ n q k, net.clients[n]? = some (.send q k) ∧
    net'.server = (answer q net.server).2 ∧
    net'.clients = net.clients.set n (k (answer q net.server).1) := by
  obtain ⟨n, hn⟩ := h
  unfold turn at hn
  split at hn
  · next q k hc =>
    cases hn
    exact ⟨n, q, k, hc, rfl, rfl⟩
  · cases hn

theorem ReachWith.mono {G G' : S → Prop} (h : ∀ s, G s → G' s)
    (hr : ReachWith answer G net net') : ReachWith answer G' net net' := by
  induction hr with
  | refl => exact .refl
  | tail _ hstep ih => exact ih.tail ⟨hstep.1, h _ hstep.2⟩

theorem ReachWith.of_turns {G : S → Prop} {p : S → Bool} (hp : ∀ s, p s = true → G s) :
    ∀ (ns : List ℕ) {net net' : Net S Q A α}, net.turns answer p ns = some net' →
      ReachWith answer G net net'
  | [], _, _, h => by cases h; exact .refl
  | n :: ns, net, net', h => by
    unfold turns at h
    split at h
    · next hs =>
      obtain ⟨mid, hmid, h⟩ := Option.bind_eq_some_iff.mp h
      exact .head ⟨⟨n, hmid⟩, hp _ hs⟩ (ReachWith.of_turns hp ns h)
    · cases h

end Net

end Rpc
