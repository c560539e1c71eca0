import Handover.Proofs.Platform.Evolution

/-!
# What operations answer

An operation answers with an object, with what it has changed, or with an error. One that answers
with an error, or that it has settled nothing, is refused: it leaves the platform as it was, but
that a refused update may have met the failure that awaited it (`Operation.apply_of_refused`).
-/

namespace Handover.Platform

/-- The answer to an operation that is carried out. -/
inductive Answer where
  | object (w : Workload)
  | changed (any : Bool)
  | settled (count : Nat)
  | done

/-- What an operation answers. -/
def Operation.answer (p : Platform) : Operation → Except PlatformError Answer
  | put w => .ok (.object (p.put w).1)
  | setStatus r status => (p.setStatus r status).1.map .object
  | settle r => .ok (.changed (p.settle r).1)
  | settleKind kind => .ok (.settled (p.settleKind kind).1)
  | settleAll => .ok (.settled p.settleAll.1)
  | failNextUpdates _ _ => .ok .done
  | create w => (p.create w).1.map .object
  | update w => (p.update w).1.map .object
  | delete r propagation => (p.delete r propagation).1.map fun _ => .done

/-- The answer says that nothing was done. -/
def Answer.isNothing : Answer → Bool
  | changed any => !any
  | settled count => count = 0
  | object _ | done => false

/-- An answer is an error, or says that nothing was done. -/
def Refusal : Except PlatformError Answer → Prop
  | .error _ => True
  | .ok answer => answer.isNothing = true

instance : DecidablePred Refusal
  | .error _ => isTrue trivial
  | .ok answer => inferInstanceAs (Decidable (answer.isNothing = true))

/-- An operation fails, or settles nothing. -/
def Operation.Refused (op : Operation) (p : Platform) : Prop :=
  Refusal (op.answer p)

instance (op : Operation) (p : Platform) : Decidable (op.Refused p) :=
  inferInstanceAs (Decidable (Refusal (op.answer p)))

variable {p : Platform}

/-! ## Settling that changes nothing -/

theorem settle_of_fst_eq_false {r : ResourceRef} (h : (p.settle r).1 = false) :
    (p.settle r).2 = p := by
  unfold settle at h ⊢
  cases hw : p.object? r with
  | none => rfl
  | some w =>
    rw [hw] at h
    dsimp only at h ⊢
    split at h
    · next hsettled => rw [if_pos hsettled]
    · cases h

theorem settleEach_of_fst_eq_zero (refs : List ResourceRef) (h : (p.settleEach refs).1 = 0) :
    (p.settleEach refs).2 = p := by
  induction refs with
  | nil => rfl
  | cons r rest ih =>
    -- the count of the whole is that of the rest and one for the first if it has changed
    have hsum : ((p.settle r).2.settleEach rest).1 + (p.settle r).1.toNat = 0 := h
    have hfirst : (p.settle r).1 = false := Bool.toNat_eq_zero.1 (by omega)
    have hsame : (p.settle r).2 = p := settle_of_fst_eq_false hfirst
    rw [hsame] at hsum
    show ((p.settle r).2.settleEach rest).2 = p
    rw [hsame]
    exact ih (by omega)

theorem settleKinds_of_fst_eq_zero (kinds : List WorkloadKind) (h : (p.settleKinds kinds).1 = 0) :
    (p.settleKinds kinds).2 = p := by
  induction kinds with
  | nil => rfl
  | cons kind rest ih =>
    have hsum : (p.settleKind kind).1 + ((p.settleKind kind).2.settleKinds rest).1 = 0 := h
    have hsame : (p.settleKind kind).2 = p :=
      settleEach_of_fst_eq_zero (p.refsOfKind kind) (show (p.settleKind kind).1 = 0 by omega)
    rw [hsame] at hsum
    show ((p.settleKind kind).2.settleKinds rest).2 = p
    rw [hsame]
    exact ih (by omega)

/-! ## Refused operations -/

theorem setStatus_of_error {r : ResourceRef} {status : Status} {e : PlatformError}
    (h : (p.setStatus r status).1 = .error e) : (p.setStatus r status).2 = p := by
  rw [setStatus_eq] at h ⊢
  cases hw : p.object? r with
  | none => rfl
  | some w =>
    rw [hw] at h
    cases h

theorem create_of_error {w : Workload} {e : PlatformError} (h : (p.create w).1 = .error e) :
    (p.create w).2 = p := by
  unfold create at h ⊢
  split
  · rfl
  split
  · rfl
  · next hname hfree =>
    rw [if_neg hname, if_neg hfree] at h
    cases h

theorem delete_of_error {r : ResourceRef} {propagation : Propagation} {e : PlatformError}
    (h : (p.delete r propagation).1 = .error e) : (p.delete r propagation).2 = p := by
  unfold delete at h ⊢
  cases hw : p.object? r with
  | none => rfl
  | some w =>
    rw [hw] at h
    cases h

/-- An update that is refused leaves the platform as it was, unless a failure awaited it. -/
theorem update_of_error {w : Workload} {e : PlatformError} (h : (p.update w).1 = .error e) :
    (p.update w).2 = p ∨ ∃ rest, p.failures = e :: rest ∧
      (p.update w).2 = { p with failures := rest } := by
  rw [update_eq] at h ⊢
  cases hfailures : p.failures with
  | cons first rest =>
    rw [hfailures] at h
    cases h
    exact .inr ⟨rest, rfl, rfl⟩
  | nil =>
    rw [hfailures] at h
    left
    cases hw : p.object? w.ref with
    | none => rfl
    | some current =>
      rw [hw] at h
      dsimp only at h ⊢
      split
      · rfl
      · next hversion =>
        rw [if_neg hversion] at h
        cases h

/-- Where carrying an operation out is never nothing, to refuse it is to answer with an error. -/
theorem exists_error_of_refusal {α : Type} {result : Except PlatformError α} {f : α → Answer}
    (hf : ∀ a, (f a).isNothing = false) (h : Refusal (result.map f)) : ∃ e, result = .error e := by
  cases result with
  | error e => exact ⟨e, rfl⟩
  | ok a => exact nomatch (hf a).symm.trans h

/-- An operation that is refused leaves the platform as it was, or it is an update and has met a
failure that awaited it. -/
theorem Operation.apply_of_refused {op : Operation} (h : op.Refused p) :
    op.apply p = p ∨ ∃ w e rest, op = .update w ∧ p.failures = e :: rest ∧
      op.apply p = { p with failures := rest } := by
  unfold Refused at h
  cases op with
  | put w => cases h
  | failNextUpdates e count => cases h
  | settle r =>
    have hchanged : (p.settle r).1 = false := by
      simpa only [answer, Refusal, Answer.isNothing, Bool.not_eq_true'] using h
    exact .inl (settle_of_fst_eq_false hchanged)
  | settleKind kind =>
    have hcount : (p.settleKind kind).1 = 0 := by
      simpa only [answer, Refusal, Answer.isNothing, decide_eq_true_eq] using h
    exact .inl (settleEach_of_fst_eq_zero _ hcount)
  | settleAll =>
    have hcount : p.settleAll.1 = 0 := by
      simpa only [answer, Refusal, Answer.isNothing, decide_eq_true_eq] using h
    exact .inl (settleKinds_of_fst_eq_zero _ hcount)
  | setStatus r status =>
    obtain ⟨e, he⟩ := exists_error_of_refusal (fun _ => rfl) h
    exact .inl (setStatus_of_error he)
  | create w =>
    obtain ⟨e, he⟩ := exists_error_of_refusal (fun _ => rfl) h
    exact .inl (create_of_error he)
  | delete r propagation =>
    obtain ⟨e, he⟩ := exists_error_of_refusal (fun _ => rfl) h
    exact .inl (delete_of_error he)
  | update w =>
    obtain ⟨e, he⟩ := exists_error_of_refusal (fun _ => rfl) h
    rcases update_of_error he with hsame | ⟨rest, hfailures, hrest⟩
    · exact .inl hsame
    · exact .inr ⟨w, e, rest, rfl, hfailures, hrest⟩

end Handover.Platform
