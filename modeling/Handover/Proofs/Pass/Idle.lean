import Handover.Proofs.Platform.Reading

/-!
# Idle migrations

A migration is `Idle` on a platform if a pass over it would find both its objects and wait. As long
as it stays executing and in time, any pass over an idle migration then changes nothing
(`pass_of_idle`); and a pass that has changed nothing has found the migration idle, on what it has
read (`of_pass_unchanged`).
-/

namespace Handover.Migration

/-- Work is left, both objects are there, and what is intended for them is to wait. -/
def Idle (m : Migration) (p : Platform) : Prop :=
  m.isComplete = false ∧ ∃ src dst, p.object? m.src = some src ∧ p.object? m.dst = some dst ∧
    m.intent src dst = .settle .unchanged

variable {m : Migration} {p q : Platform} {read : ResourceRef → Except PlatformError Workload}
  {limit now : Nat}

/-- Whether a migration is idle depends on its two objects alone. -/
theorem Idle.of_object?_eq (h : m.Idle p)
    (hobjects : ∀ side, q.object? (m.refOf side) = p.object? (m.refOf side)) : m.Idle q := by
  obtain ⟨hcomplete, src, dst, hsrc, hdst, hintent⟩ := h
  exact ⟨hcomplete, src, dst, (hobjects .src).trans hsrc, (hobjects .dst).trans hdst, hintent⟩

/-- A pass over an idle migration changes nothing, whatever an update would do. -/
theorem pass_of_idle (h : m.Idle p) (hexecuting : m.ending = none)
    (htime : m.timedOut now = false)
    (update : Workload → Platform → Except PlatformError Workload × Platform) (limit : Nat) :
    m.pass { Platform.client with update } limit now p = (.unchanged, p) := by
  obtain ⟨hcomplete, src, dst, hsrc, hdst, hintent⟩ := h
  have hopen : m.isOpen now = true := by
    unfold isOpen isTerminal
    rw [hexecuting, hcomplete, htime]
    rfl
  have hread : m.readBoth { Platform.client with update } p = (.ok (src, dst), p) := by
    unfold readBoth
    simp only [Platform.client, Platform.get, hsrc, hdst]
  rw [pass_of_isOpen hopen, hread]
  show m.proceed _ limit src dst p = _
  rw [proceed_eq, hintent]

/-- A pass over an executing migration that has changed nothing has read two objects and intended to
wait. -/
theorem of_pass_unchanged (hexecuting : m.ending = none)
    (hpass : (m.pass (Platform.clientReading read) limit now p).1 = .unchanged) :
    (m.pass (Platform.clientReading read) limit now p).2 = p ∧ m.isComplete = false ∧
      ∃ src dst, read m.src = .ok src ∧ read m.dst = .ok dst ∧
        m.intent src dst = .settle .unchanged := by
  cases hopen : m.isOpen now with
  | false =>
    obtain ⟨v, -, hending, heq⟩ := pass_of_not_isOpen hopen
    rw [heq (Platform.clientReading read) limit p] at hpass
    obtain rfl : v = .unchanged := hpass
    exact absurd rfl (hending hexecuting)
  | true =>
    have hcomplete : m.isComplete = false := by
      simp only [isOpen, Bool.and_eq_true, Bool.not_eq_true'] at hopen
      exact hopen.1.2
    cases hsrc : read m.src with
    | error e =>
      rw [pass_of_isOpen hopen, readBoth_reading, hsrc] at hpass
      cases hpass
    | ok src =>
      cases hdst : read m.dst with
      | error e =>
        rw [pass_of_isOpen hopen, readBoth_reading, hsrc, hdst] at hpass
        cases hpass
      | ok dst =>
        rw [pass_reading_of_ok hopen hsrc hdst] at hpass ⊢
        cases hintent : m.intent src dst with
        | settle v =>
          rw [hintent] at hpass
          obtain rfl : v = .unchanged := hpass
          exact ⟨rfl, hcomplete, src, dst, rfl, rfl, hintent⟩
        | write side n =>
          rw [hintent] at hpass
          exact absurd hpass (move_ne_unchanged _ limit m side n (side.pick src dst) p)

end Handover.Migration
