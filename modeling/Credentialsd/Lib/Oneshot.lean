/-!
# One-shot channels

The shared state of a one-shot channel: the values passed to `send`, oldest
first, and whether the sender was dropped unused. `send` consumes the sender,
so a program that respects ownership sends at most once; here that is something
to prove about the program, since the state records every send.
-/

structure Oneshot (α : Type) where
  sends : List α
  dropped : Bool
  deriving Repr, DecidableEq

namespace Oneshot

variable {α : Type}

def fresh : Oneshot α := ⟨[], false⟩

def send (c : Oneshot α) (a : α) : Oneshot α := { c with sends := c.sends ++ [a] }

def drop (c : Oneshot α) : Oneshot α := { c with dropped := true }

inductive Recv (α : Type) where
  | pending
  | ready (a : α)
  | closed
  deriving Repr, DecidableEq

def recv (c : Oneshot α) : Recv α :=
  match c.sends with
  | a :: _ => .ready a
  | [] => if c.dropped then .closed else .pending

def Answered (c : Oneshot α) (a : α) : Prop := c = ⟨[a], false⟩

@[simp] theorem fresh_sends : (fresh : Oneshot α).sends = [] := rfl

@[simp] theorem fresh_recv : (fresh : Oneshot α).recv = .pending := rfl

theorem send_fresh (a : α) : (fresh.send a).Answered a := rfl

theorem Answered.sends {c : Oneshot α} {a : α} (h : c.Answered a) : c.sends = [a] := by
  rw [h]

theorem Answered.recv {c : Oneshot α} {a : α} (h : c.Answered a) : c.recv = .ready a := by
  rw [h]
  rfl

theorem Answered.ne_fresh {c : Oneshot α} {a : α} (h : c.Answered a) : c ≠ fresh := by
  intro hf
  have hs := congrArg Oneshot.sends hf
  rw [h.sends] at hs
  cases hs

end Oneshot
