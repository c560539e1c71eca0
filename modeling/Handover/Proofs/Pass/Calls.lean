import Handover.Proofs.Pass

/-!
# The calls of a pass

`Client.recorded` is a client that answers as another one does and keeps a record of its calls. A
pass against it comes to the same as a pass against the other one, and its record says what the pass
has called: nothing, the reads of the source and the destination, or both reads and one update
(`Migration.pass_recorded_cases`).
-/

namespace Handover

/-- A call of a platform. -/
inductive Call where
  | get (r : ResourceRef)
  | create (w : Workload)
  | update (w : Workload)
  | delete (r : ResourceRef) (propagation : Propagation)
  | watch (kind : WorkloadKind)

namespace Call

/-- Whether a call is a read. -/
def isGet : Call → Bool
  | get _ => true
  | create _ | update _ | delete .. | watch _ => false

/-- Whether a call is an update. -/
def isUpdate : Call → Bool
  | update _ => true
  | get _ | create _ | delete .. | watch _ => false

/-- Among reads there is no update. -/
theorem countP_isUpdate_of_isGet {calls : List Call} (h : ∀ c ∈ calls, c.isGet = true) :
    calls.countP isUpdate = 0 := by
  refine List.countP_eq_zero.2 fun c hc => ?_
  cases c with
  | get r => exact Bool.false_ne_true
  | create w => cases h _ hc
  | update w => cases h _ hc
  | delete r propagation => cases h _ hc
  | watch kind => cases h _ hc

end Call

variable {σ : Type}

/-- The client that answers as another one does and keeps a record of its calls. -/
def Client.recorded (client : Client σ) : Client (σ × List Call) where
  get r s := ((client.get r s.1).1, (client.get r s.1).2, s.2 ++ [.get r])
  create w s := ((client.create w s.1).1, (client.create w s.1).2, s.2 ++ [.create w])
  update w s := ((client.update w s.1).1, (client.update w s.1).2, s.2 ++ [.update w])
  delete r propagation s :=
    ((client.delete r propagation s.1).1, (client.delete r propagation s.1).2,
      s.2 ++ [.delete r propagation])
  watch kind s := ((client.watch kind s.1).1, (client.watch kind s.1).2, s.2 ++ [.watch kind])
  receive r s := client.receive r s.1

namespace Migration

/-- The reads of a pass: the destination is not read if the source cannot be. -/
def reads (client : Client σ) (m : Migration) (s : σ) : List Call :=
  match (client.get m.src s).1 with
  | .error _ => [.get m.src]
  | .ok _ => [.get m.src, .get m.dst]

theorem readBoth_recorded (client : Client σ) (m : Migration) (s : σ) :
    m.readBoth client.recorded (s, []) =
      ((m.readBoth client s).1, (m.readBoth client s).2, m.reads client s) := by
  unfold readBoth reads
  simp only [Client.recorded]
  rcases client.get m.src s with ⟨e | src, t⟩
  · rfl
  · dsimp only
    rcases client.get m.dst t with ⟨e | dst, u⟩ <;> rfl

theorem isGet_of_mem_reads {client : Client σ} {m : Migration} {s : σ} {c : Call}
    (h : c ∈ m.reads client s) : c.isGet = true := by
  unfold reads at h
  split at h
  · obtain rfl := List.mem_singleton.1 h
    rfl
  · obtain rfl | rfl : c = .get m.src ∨ c = .get m.dst := by simpa using h
    · rfl
    · rfl

theorem reads_of_readBoth {client : Client σ} {m : Migration} {s t : σ} {src dst : Workload}
    (h : m.readBoth client s = (.ok (src, dst), t)) :
    m.reads client s = [.get m.src, .get m.dst] := by
  unfold readBoth at h
  unfold reads
  rcases hget : client.get m.src s with ⟨e | src, u⟩
  · rw [hget] at h
    cases h
  · rfl

theorem move_recorded (client : Client σ) (limit : Nat) (m : Migration) (side : Side) (n : Int)
    (object : Workload) (s : σ) (calls : List Call) :
    m.move client.recorded limit side n object (s, calls) =
      ((m.move client limit side n object s).1, (m.move client limit side n object s).2,
        calls ++ [.update (object.moved side n)]) := by
  rw [move_eq, move_eq]
  simp only [Client.recorded]
  rcases client.update (object.moved side n) s with ⟨e | written, t⟩ <;> rfl

/-- All that a pass can do, with its calls: it settles, having called nobody or made its reads, or
it reads two objects of an open migration and makes the update that it intends. -/
theorem pass_recorded_cases (client : Client σ) (limit now : Nat) (m : Migration) (s : σ) :
    (∃ v t calls, v.isWriteless = true ∧ (m.isOpen now = false → calls = []) ∧
      (calls = [] ∨ calls = m.reads client s) ∧ m.pass client limit now s = (v, t) ∧
      m.pass client.recorded limit now (s, []) = (v, t, calls)) ∨
    ∃ src dst t side n, m.isOpen now = true ∧ m.readBoth client s = (.ok (src, dst), t) ∧
      m.intent src dst = .write side n ∧
      m.pass client limit now s = m.move client limit side n (side.pick src dst) t ∧
      m.pass client.recorded limit now (s, []) =
        ((m.pass client limit now s).1, (m.pass client limit now s).2,
          [.get m.src, .get m.dst, .update ((side.pick src dst).moved side n)]) := by
  cases hopen : m.isOpen now with
  | false =>
    obtain ⟨v, hv, -, hpass⟩ := pass_of_not_isOpen hopen
    exact .inl ⟨v, s, [], hv, fun _ => rfl, .inl rfl, hpass client limit s,
      hpass client.recorded limit (s, [])⟩
  | true =>
    rw [pass_of_isOpen hopen, pass_of_isOpen hopen, readBoth_recorded]
    rcases hread : m.readBoth client s with ⟨e | ⟨src, dst⟩, t⟩
    · exact .inl ⟨_, t, _, rfl, nofun, .inr rfl, rfl, rfl⟩
    · dsimp only
      rw [proceed_eq, proceed_eq]
      cases hintent : m.intent src dst with
      | settle v => exact .inl ⟨v, t, _, isWriteless_of_intent hintent, nofun, .inr rfl, rfl, rfl⟩
      | write side n =>
        refine .inr ⟨src, dst, t, side, n, rfl, rfl, hintent, rfl, ?_⟩
        dsimp only
        rw [move_recorded, reads_of_readBoth hread]
        rfl

end Migration

end Handover
