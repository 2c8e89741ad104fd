import MiniOj.Infra.Transition

/-!
# What a pool of connections is for

A pool owns a fixed number of slots. A slot is free, out (somebody has it, or is about to
get it) or lost. Only free slots can be handed out, and a slot that is lost never comes back.

This is the purpose of the pool stated on its own; `Db/Properties/Pool.lean` shows that
`ConnectionPool` is one.
-/

namespace MiniOj.Db

open Infra

/-- How many slots are in which state. -/
structure SlotLedger where
  free : Nat
  out : Nat
  lost : Nat
  deriving DecidableEq, Repr

/-- What can happen to a slot. -/
inductive SlotOp where
  | take
  | giveBack
  | lose
  deriving DecidableEq, Repr

namespace SlotLedger

/-- Only a slot that is out can be given back or lost. -/
def step (s : SlotLedger) : SlotOp → Option SlotLedger
  | .take => if 0 < s.free then some { s with free := s.free - 1, out := s.out + 1 } else none
  | .giveBack => if 0 < s.out then some { s with free := s.free + 1, out := s.out - 1 } else none
  | .lose => if 0 < s.out then some { s with out := s.out - 1, lost := s.lost + 1 } else none

/-- All slots. -/
def total (s : SlotLedger) : Nat := s.free + s.out + s.lost

variable {s s' : SlotLedger}

/-- What one operation does to the total and to the lost slots. -/
theorem step_spec {op : SlotOp} (h : step s op = some s') :
    s'.total = s.total ∧ s'.lost = s.lost + (op == .lose).toNat := by
  cases op <;> simp only [step, Option.ite_none_right_eq_some, Option.some.injEq] at h <;>
    obtain ⟨hpos, rfl⟩ := h <;> simp [total] <;> omega

/-- **The slots never change in number, and each `lose` loses one for good.** -/
theorem run_spec {ops : List SlotOp} : ∀ {s s' : SlotLedger}, run step s ops = some s' →
    s'.total = s.total ∧ s'.lost = s.lost + ops.countP (· == .lose) := by
  induction ops with
  | nil =>
    intro s s' h
    cases h
    exact ⟨rfl, rfl⟩
  | cons op ops ih =>
    intro s s' h
    obtain ⟨t, ht, hr⟩ := run_cons_some.mp h
    obtain ⟨htot, hlost⟩ := step_spec ht
    obtain ⟨htot', hlost'⟩ := ih hr
    refine ⟨htot'.trans htot, ?_⟩
    rw [hlost', hlost, List.countP_cons]
    cases op <;> simp <;> omega

/-- Once a slot is lost, the slots cannot all be out at the same time again. -/
theorem lost_eq_zero_of_all_out {ops : List SlotOp} (h : run step s ops = some s')
    (hall : s'.out = s.total) : s.lost = 0 := by
  obtain ⟨htot, hlost⟩ := run_spec h
  simp only [total] at htot hall
  omega

end SlotLedger

end MiniOj.Db
