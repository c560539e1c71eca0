import Handover.Proofs.Platform.Evolution
import Mathlib.Order.Nat

/-!
# News of objects

A log only grows while a platform evolves, and no object changes without an event about it. So for
whoever has read a log up to some position, an object is as it was then or the log tells of it from
that position on (`Evolves.object?_eq_or_tells`).
-/

namespace Handover

theorem Logs.get_emit (logs : Logs) (change : Change) (w : Workload) (kind : WorkloadKind) :
    (logs.emit change w).get kind =
      if kind = w.kind then (logs.get kind).push ⟨change, w⟩ else logs.get kind :=
  PerKind.get_modify logs (·.push ⟨change, w⟩) w.kind kind

namespace Platform

/-- The log of a kind has an event about an object at a position or later. -/
def Tells (p : Platform) (kind : WorkloadKind) (position : Nat) (r : ResourceRef) : Prop :=
  ∃ i e, position ≤ i ∧ (p.logs.get kind)[i]? = some e ∧ e.object.ref = r

variable {p q : Platform} {kind : WorkloadKind} {position : Nat} {r : ResourceRef}

/-- What a receiver gets of the log of a kind, by where it is: it has missed events and goes on at
the oldest one that is retained, or it gets its next event, or there is none yet. -/
theorem receive_following_cases (hle : position ≤ (p.logs.get kind).size) :
    (∃ missed oldest, position < oldest ∧ oldest ≤ (p.logs.get kind).size ∧
      p.receive (.following kind position) = .lagged missed (.following kind oldest)) ∨
    (∃ e, (p.logs.get kind)[position]? = some e ∧
      p.receive (.following kind position) = .event e (.following kind (position + 1))) ∨
    (p.logs.get kind).size = position ∧
      p.receive (.following kind position) = .nothingYet := by
  simp only [receive, Receiver.next]
  split
  · next hlt => exact .inl ⟨_, _, hlt, Nat.sub_le _ _, rfl⟩
  cases he : (p.logs.get kind)[position]? with
  | some e => exact .inr (.inl ⟨e, rfl, rfl⟩)
  | none =>
    have hsize := Array.getElem?_eq_none_iff.1 he
    exact .inr (.inr ⟨by omega, rfl⟩)

/-! ## Logs grow -/

/-- An edit writes one event or none. -/
theorem Edit.logs_eq (h : p.Edit q) :
    q.logs = p.logs ∨ ∃ change w, q.logs = p.logs.emit change w := by
  cases h with
  | failures fs => exact .inl rfl
  | store change w hw => exact .inr ⟨change, w, rfl⟩
  | remove r w propagation hw => exact .inr ⟨.deleted, w, rfl⟩

theorem Edit.size_log_le (h : p.Edit q) (kind : WorkloadKind) :
    (p.logs.get kind).size ≤ (q.logs.get kind).size := by
  rcases h.logs_eq with heq | ⟨change, w, heq⟩
  · rw [heq]
  · rw [heq, Logs.get_emit]
    split
    · rw [Array.size_push]
      omega
    · exact le_refl _

theorem Evolves.size_log_le (h : p.Evolves q) (kind : WorkloadKind) :
    (p.logs.get kind).size ≤ (q.logs.get kind).size := by
  induction h with
  | refl => exact le_refl _
  | tail _ hedit ih => exact ih.trans (hedit.size_log_le kind)

/-- An edit leaves the events that are there. -/
theorem Edit.getElem?_log (h : p.Edit q) {i : Nat} (hi : i < (p.logs.get kind).size) :
    (q.logs.get kind)[i]? = (p.logs.get kind)[i]? := by
  rcases h.logs_eq with heq | ⟨change, w, heq⟩
  · rw [heq]
  · rw [heq, Logs.get_emit]
    split
    · rw [Array.getElem?_push_lt hi, Array.getElem?_eq_getElem hi]
    · rfl

/-- What a log tells, it goes on to tell. -/
theorem Tells.after_edit (h : p.Edit q) (htells : p.Tells kind position r) :
    q.Tells kind position r := by
  obtain ⟨i, e, hi, he, hr⟩ := htells
  have hlt : i < (p.logs.get kind).size := (Array.getElem?_eq_some_iff.1 he).1
  exact ⟨i, e, hi, (h.getElem?_log hlt).trans he, hr⟩

theorem Tells.after_evolves (h : p.Evolves q) (htells : p.Tells kind position r) :
    q.Tells kind position r := by
  induction h with
  | refl => exact htells
  | tail _ hedit ih => exact ih.after_edit hedit

/-- What is told from a position on is told from any earlier one on. -/
theorem Tells.mono {earlier : Nat} (h : p.Tells kind position r) (hle : earlier ≤ position) :
    p.Tells kind earlier r := by
  obtain ⟨i, e, hi, he⟩ := h
  exact ⟨i, e, hle.trans hi, he⟩

/-! ## Changes are told -/

/-- Writing an event tells of its object. -/
theorem tells_emit {logs : Logs} {change : Change} {w : Workload}
    (h : q.logs = logs.emit change w) : q.Tells w.kind (logs.get w.kind).size w.ref := by
  refine ⟨_, ⟨change, w⟩, le_refl _, ?_, rfl⟩
  rw [h, Logs.get_emit, if_pos rfl, Array.getElem?_push_size]

/-- What an edit does to an object it tells. -/
theorem Edit.object?_eq_or_tells (h : p.Edit q) (hp : p.Sound) (hkind : r.kind? = some kind) :
    q.object? r = p.object? r ∨ q.Tells kind (p.logs.get kind).size r := by
  have htells : ∀ {change w}, q.logs = p.logs.emit change w → w.ref = r →
      q.Tells kind (p.logs.get kind).size r := by
    rintro change w hlogs rfl
    obtain rfl : w.kind = kind := Option.some.inj (w.kind?_ref.symm.trans hkind)
    exact tells_emit hlogs
  cases h with
  | failures fs => exact .inl rfl
  | store change w hw =>
    by_cases hr : r = w.ref
    · exact .inr (htells rfl hr.symm)
    · exact .inl (by rw [object?_store, if_neg hr])
  | remove s w propagation hw =>
    by_cases hr : r = s
    · exact .inr (htells rfl ((hp.ref_eq s w hw).trans hr.symm))
    · exact .inl (by rw [object?_remove, if_neg hr])

/-- Whoever has read a log up to a position misses no change from there on: an object is as it was,
or the log tells of it. -/
theorem Evolves.object?_eq_or_tells (h : p.Evolves q) (hp : p.Sound)
    (hkind : r.kind? = some kind) (hposition : position ≤ (p.logs.get kind).size) :
    q.object? r = p.object? r ∨ q.Tells kind position r := by
  induction h with
  | refl => exact .inl rfl
  | tail hrun hedit ih =>
    rcases ih with heq | htells
    · rcases hedit.object?_eq_or_tells (Evolves.sound hrun hp) hkind with hstay | hnew
      · exact .inl (hstay.trans heq)
      · exact .inr (hnew.mono (hposition.trans (Evolves.size_log_le hrun kind)))
    · exact .inr (htells.after_edit hedit)

end Platform

end Handover
