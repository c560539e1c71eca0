import Handover.Proofs.Platform.Evolution
import Mathlib.Order.Nat

/-!
# Versions are never used again

An object that is not what it was has been stored anew, and everything stored anew carries a version
that had not been given out before (`Evolves.object?_eq_or_renewed`). So the version tells two
states of an object apart, across deletion and creation too: `eq_of_version_eq` and its counterpart
`version_ne_of_changed`.
-/

namespace Handover.Platform

variable {p q s : Platform} {r : ResourceRef} {v w : Workload} {n : Nat}

/-- The object under a reference, if there is one, was stored under version `n` or a later one. -/
structure Renewed (n : Nat) (r : ResourceRef) (p : Platform) : Prop where
  le_next : n ≤ p.nextVersion
  le_version : ∀ w, p.object? r = some w → n ≤ w.metadata.resourceVersion

theorem Renewed.mono {k : Nat} (h : p.Renewed n r) (hk : k ≤ n) : p.Renewed k r :=
  ⟨hk.trans h.le_next, fun w hw => hk.trans (h.le_version w hw)⟩

theorem Edit.nextVersion_le (h : p.Edit q) : p.nextVersion ≤ q.nextVersion := by
  cases h with
  | failures fs => exact le_refl _
  | store change w hw => exact Nat.le_succ _
  | remove r w propagation hw => exact le_refl _

theorem Evolves.nextVersion_le (h : p.Evolves q) : p.nextVersion ≤ q.nextVersion := by
  induction h with
  | refl => exact le_refl _
  | tail _ hedit ih => exact ih.trans hedit.nextVersion_le

theorem renewed_store (change : Change) (hw : w.metadata.resourceVersion = p.nextVersion) :
    (p.store change w).Renewed p.nextVersion w.ref := by
  refine ⟨Nat.le_succ _, ?_⟩
  intro v hv
  rw [object?_store, if_pos rfl] at hv
  cases hv
  exact hw.ge

theorem renewed_remove (r : ResourceRef) (w : Workload) (propagation : Propagation) :
    (p.remove r w propagation).Renewed p.nextVersion r := by
  refine ⟨le_refl _, ?_⟩
  intro v hv
  rw [object?_remove, if_pos rfl] at hv
  cases hv

/-- An edit leaves the object under a reference alone or renews it. -/
theorem Edit.object?_eq_or_renewed (h : p.Edit q) (r : ResourceRef) :
    q.object? r = p.object? r ∨ q.Renewed p.nextVersion r := by
  cases h with
  | failures fs => exact .inl rfl
  | store change w hw =>
    by_cases hr : r = w.ref
    · exact .inr (hr ▸ renewed_store change hw)
    · exact .inl (by rw [object?_store, if_neg hr])
  | remove s w propagation hw =>
    by_cases hr : r = s
    · exact .inr (hr ▸ renewed_remove r w propagation)
    · exact .inl (by rw [object?_remove, if_neg hr])

/-- What has been renewed stays renewed. -/
theorem Edit.renewed (h : p.Edit q) (hp : p.Renewed n r) : q.Renewed n r := by
  rcases h.object?_eq_or_renewed r with heq | hnew
  · exact ⟨hp.le_next.trans h.nextVersion_le, fun w hw => hp.le_version w (heq ▸ hw)⟩
  · exact hnew.mono hp.le_next

theorem Evolves.renewed (h : p.Evolves q) (hp : p.Renewed n r) : q.Renewed n r := by
  induction h with
  | refl => exact hp
  | tail _ hedit ih => exact hedit.renewed ih

/-- While a platform evolves, an object stays as it is or is renewed. -/
theorem Evolves.object?_eq_or_renewed (h : p.Evolves q) (r : ResourceRef) :
    q.object? r = p.object? r ∨ q.Renewed p.nextVersion r := by
  induction h with
  | refl => exact .inl rfl
  | tail hrun hedit ih =>
    rcases ih with heq | hnew
    · rcases hedit.object?_eq_or_renewed r with hstay | hnew
      · exact .inl (hstay.trans heq)
      · exact .inr (hnew.mono (Evolves.nextVersion_le hrun))
    · exact .inr (hedit.renewed hnew)

/-- The version identifies the state of an object among all its later states. -/
theorem eq_of_version_eq (hp : p.Sound) (hw : p.object? r = some w) (hpq : p.Evolves q)
    (hv : q.object? r = some v)
    (hversion : v.metadata.resourceVersion = w.metadata.resourceVersion) : v = w := by
  rcases hpq.object?_eq_or_renewed r with heq | hnew
  · rw [heq, hw] at hv
    exact (Option.some.inj hv).symm
  · -- a renewed object has a version that was still to come
    have hlt := hp.version_lt r w hw
    have hle := hnew.le_version v hv
    omega

/-- An object that was changed or removed at some time never has its earlier version again. -/
theorem version_ne_of_changed (hp : p.Sound) (hw : p.object? r = some w) (hpq : p.Evolves q)
    (hq : q.object? r ≠ some w) (hqs : q.Evolves s) (hv : s.object? r = some v) :
    v.metadata.resourceVersion ≠ w.metadata.resourceVersion := by
  have hlt := hp.version_lt r w hw
  rcases hpq.object?_eq_or_renewed r with heq | hnew
  · exact absurd (heq.trans hw) hq
  · -- what was renewed in between stays so, whatever becomes of it
    have hle := (hqs.renewed hnew).le_version v hv
    omega

end Handover.Platform
