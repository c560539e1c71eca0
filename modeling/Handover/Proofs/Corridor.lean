import Handover.Proofs.Platform.Declared

/-!
# The capacity corridor

Between the passes over a migration others may do whatever spares its two objects. Then the declared
counts of the two objects stand to the counters as they did at the start
(`Migration.Accounts`), so the replicas declared in total never fall below what was there at the
start and never exceed it by more than the surge bound, and whoever takes from the source leaves
enough replicas available (`Stage.declared_within_corridor`).
-/

namespace Handover

/-! ## One pass -/

namespace Migration

/-- The declared count of each side's object is what it was at the start, moved as its counter
says. -/
def Accounts (m : Migration) (N D : Int) (p : Platform) : Prop :=
  ∀ side, p.declared? (m.refOf side) =
    some (side.pick N D + side.change (m.counters.count side))

variable {m : Migration} {p : Platform} {N D : Int}

/-- A pass keeps the account, whatever it has read of what has been there. -/
theorem Accounts.after_pass_held (h : m.Accounts N D p)
    {read : ResourceRef → Except PlatformError Workload}
    (hread : ∀ r w, read r = .ok w → p.Held r w) (hne : m.src ≠ m.dst)
    (hbalanced : m.counters.Balanced m.goal.replicas m.goal.maxSurge) (limit now : Nat) :
    (m.conclude now (m.pass (Platform.clientReading read) limit now p).1).Accounts N D
      (m.pass (Platform.clientReading read) limit now p).2 := by
  intro side
  rw [refOf_conclude]
  rcases declared?_pass_held hread hne hbalanced.within limit now side with
    ⟨hdeclared, hcount⟩ | ⟨k, n, hk, hdeclared, hcount⟩
  · rw [hdeclared, hcount, h side]
  · have hk' := hk.symm.trans (h side)
    rw [Option.some.injEq] at hk'
    rw [hdeclared, hcount, hk', Side.change_add, Int.add_assoc]

/-- A pass keeps the account. -/
theorem Accounts.after_pass (h : m.Accounts N D p) (hp : p.Sound) (hne : m.src ≠ m.dst)
    (hbalanced : m.counters.Balanced m.goal.replicas m.goal.maxSurge) (limit now : Nat) :
    (m.conclude now (m.pass Platform.client limit now p).1).Accounts N D
      (m.pass Platform.client limit now p).2 := by
  rw [pass_client]
  exact h.after_pass_held (Platform.held_of_get hp) hne hbalanced limit now

/-- A pass that relieves the source does so while the destination is fully available. -/
theorem exists_available_of_pass (hp : p.Sound) (hne : m.src ≠ m.dst)
    (hbalanced : m.counters.Balanced m.goal.replicas m.goal.maxSurge) (limit now : Nat)
    (hmoved : (m.conclude now (m.pass Platform.client limit now p).1).counters.src ≠
      m.counters.src) :
    ∃ w, (m.pass Platform.client limit now p).2.object? m.dst = some w ∧
      w.declared = w.status.availableReplicas := by
  rw [pass_client] at hmoved ⊢
  rcases pass_held_cases (Platform.held_of_get hp) limit now m with
    ⟨-, hverdict⟩ | ⟨src, dst, side, n, -, -, hget, hintent, -, href, -, hpass⟩
  · exact absurd (congrArg Counters.src (counters_conclude_of_not_isLanded hverdict m now)) hmoved
  rw [hpass] at hmoved ⊢
  cases side with
  | dst =>
    -- what is given to the destination is not counted for the source
    rw [counters_conclude_landed hbalanced.within hintent] at hmoved
    exact absurd rfl hmoved
  | src =>
    obtain ⟨-, hplan, -⟩ := intent_eq_write_iff.1 hintent
    obtain ⟨-, -, -, -, havailable⟩ := of_plan_eq_scaleIn hplan
    refine ⟨dst, ?_, havailable⟩
    rw [Platform.object?_store, if_neg]
    · exact Platform.object?_of_get hget
    · rw [Workload.ref_stamped, Workload.ref_moved, href]
      exact hne.symm

end Migration

/-! ## Runs -/

/-- A registry and a platform between the steps of a run. -/
structure Stage where
  registry : Registry
  platform : Platform

namespace Stage

/-- The stage after a pass over a migration. -/
def pass (limit : Nat) (id : MigrationId) (now : Nat) (t : Stage) : Stage :=
  let result := t.registry.reconcile Platform.client limit now id t.platform
  ⟨result.2.1, result.2.2⟩

/-- A step of a run: a pass over the migration, at whatever time, or an operation of somebody else
that spares its two objects. -/
inductive Step (limit : Nat) (id : MigrationId) (src dst : ResourceRef) (t : Stage) : Stage → Prop
  | pass (now : Nat) : Step limit id src dst t (t.pass limit id now)
  | operate (op : Platform.Operation) (hsrc : op.Spares t.platform src)
      (hdst : op.Spares t.platform dst) :
      Step limit id src dst t { t with platform := op.apply t.platform }

/-- A stage that steps lead to. -/
def Reach (limit : Nat) (id : MigrationId) (src dst : ResourceRef) : Stage → Stage → Prop :=
  Relation.ReflTransGen (Step limit id src dst)

variable {limit : Nat} {id : MigrationId}

/-- What runs preserve: the platform is sound, and the migration that was started is known, with
balanced counters that account for the declared counts. -/
structure Inv (id : MigrationId) (src dst : ResourceRef) (goal : Goal) (N D : Int) (t : Stage) :
    Prop where
  sound : t.platform.Sound
  known : ∃ m, t.registry.get? id = some m ∧ m.src = src ∧ m.dst = dst ∧ m.goal = goal ∧
    m.counters.Balanced goal.replicas goal.maxSurge ∧ m.Accounts N D t.platform

variable {src dst : ResourceRef} {goal : Goal} {N D : Int} {t u : Stage}

/-- The registry after a pass concludes the migration, and the platform is that of the pass. -/
theorem pass_of_get? (limit : Nat) {m : Migration} (hm : t.registry.get? id = some m) (now : Nat) :
    (t.pass limit id now).registry.get? id =
        some (m.conclude now (m.pass Platform.client limit now t.platform).1) ∧
      (t.pass limit id now).platform = (m.pass Platform.client limit now t.platform).2 :=
  Registry.reconcile_of_get? hm Platform.client limit now t.platform

theorem Inv.step (h : t.Inv id src dst goal N D) (hne : src ≠ dst)
    (hstep : Step limit id src dst t u) : u.Inv id src dst goal N D := by
  obtain ⟨hp, m, hm, rfl, rfl, rfl, hbalanced, haccounts⟩ := h
  cases hstep with
  | pass now =>
    obtain ⟨hregistry, hplatform⟩ := pass_of_get? limit hm now
    refine ⟨?_, _, hregistry, Migration.src_conclude .., Migration.dst_conclude ..,
      Migration.goal_conclude .., ?_, ?_⟩
    · rw [hplatform, Migration.pass_client]
      exact (Migration.evolves_pass_reading _ limit now m _).sound hp
    · exact (Migration.balanced_conclude_pass hbalanced Platform.client limit now _).1
    · rw [hplatform]
      exact haccounts.after_pass hp hne hbalanced limit now
  | operate op hsrc hdst =>
    refine ⟨(op.evolves t.platform).sound hp, m, hm, rfl, rfl, rfl, hbalanced, fun side => ?_⟩
    cases side with
    | src => exact Platform.declared?_apply hp (haccounts .src) hsrc
    | dst => exact Platform.declared?_apply hp (haccounts .dst) hdst

theorem Reach.inv (h : t.Inv id src dst goal N D) (hne : src ≠ dst)
    (hreach : Reach limit id src dst t u) : u.Inv id src dst goal N D := by
  induction hreach with
  | refl => exact h
  | tail _ hstep ih => exact ih.step hne hstep

/-- The account of the source and of the destination, spelled out. -/
theorem Inv.declared (h : t.Inv id src dst goal N D) :
    ∃ m, t.registry.get? id = some m ∧ m.counters.Balanced goal.replicas goal.maxSurge ∧
      t.platform.declared? src = some (N - m.counters.src) ∧
      t.platform.declared? dst = some (D + m.counters.dst) := by
  obtain ⟨-, m, hm, rfl, rfl, rfl, hbalanced, haccounts⟩ := h
  refine ⟨m, hm, hbalanced, ?_, ?_⟩
  · rw [Int.sub_eq_add_neg]
    exact haccounts .src
  · exact haccounts .dst

/-- After a pass that has reduced the source, what is declared at the source and available at the
destination is at least what was there at the start. -/
theorem Inv.le_available_of_pass (h : t.Inv id src dst goal N D) (hne : src ≠ dst) {now : Nat}
    {s s' : Int} (hs : t.platform.declared? src = some s)
    (hs' : (t.pass limit id now).platform.declared? src = some s') (hless : s' < s) :
    ∃ w, (t.pass limit id now).platform.object? dst = some w ∧
      N + D ≤ s' + w.status.availableReplicas := by
  have hafter := h.step hne (.pass now : Step limit id src dst t _)
  obtain ⟨m, hm, -, hsrc, -⟩ := h.declared
  obtain ⟨m', hm', hbalanced', hsrc', hdst'⟩ := hafter.declared
  obtain ⟨hregistry, hplatform⟩ := pass_of_get? limit hm now
  rw [hs, Option.some.injEq] at hsrc
  rw [hs', Option.some.injEq] at hsrc'
  -- the source's counter has moved, for its declared count has
  have hmoved : m'.counters.src ≠ m.counters.src := by omega
  rw [hm', Option.some.injEq] at hregistry
  obtain ⟨hp, k, hk, rfl, rfl, rfl, hbalanced, -⟩ := h
  obtain rfl : k = m := Option.some.inj (hk.symm.trans hm)
  obtain ⟨w, hw, havailable⟩ :=
    Migration.exists_available_of_pass hp hne hbalanced limit now (hregistry ▸ hmoved)
  rw [← hplatform] at hw
  have hdeclared : w.declared = D + m'.counters.dst := by
    obtain ⟨v, hv, hvd⟩ := Platform.declared?_eq_some_iff.1 hdst'
    rw [hw, Option.some.injEq] at hv
    rw [hv, hvd]
  refine ⟨w, hw, ?_⟩
  have hle := hbalanced'.src_le_dst
  omega

/-- Start with a migration that has not moved anything and with objects that declare `N` and `D`
replicas. Whatever steps follow, both objects declare at least `N + D` replicas together and at most
the surge bound more; and after a pass that has reduced the source, what the source declares and
what the destination has available are at least `N + D` together. -/
theorem declared_within_corridor {limit capacity : Nat} {before : List Platform.Operation}
    {g : Registry} {id : MigrationId} {m : Migration} {N D : Int} (hm : g.get? id = some m)
    (hcounters : m.counters = .zero) (hne : m.src ≠ m.dst) (htarget : 1 ≤ m.goal.replicas)
    (hsurge : 1 ≤ m.goal.maxSurge)
    (hN : ((Platform.empty capacity).after before).declared? m.src = some N)
    (hD : ((Platform.empty capacity).after before).declared? m.dst = some D) {t : Stage}
    (ht : Reach limit id m.src m.dst ⟨g, (Platform.empty capacity).after before⟩ t) :
    ∃ s d, t.platform.declared? m.src = some s ∧ t.platform.declared? m.dst = some d ∧
      N + D ≤ s + d ∧ s + d ≤ N + D + m.goal.maxSurge ∧
      ∀ now s', (t.pass limit id now).platform.declared? m.src = some s' → s' < s →
        ∃ w, (t.pass limit id now).platform.object? m.dst = some w ∧
          N + D ≤ s' + w.status.availableReplicas := by
  have hstart : Inv id m.src m.dst m.goal N D ⟨g, (Platform.empty capacity).after before⟩ := by
    refine ⟨Platform.sound_after capacity before, m, hm, rfl, rfl, rfl, ?_, fun side => ?_⟩
    · rw [hcounters]
      exact Counters.balanced_zero (by omega) (by omega)
    · rw [hcounters]
      cases side with
      | src => exact hN.trans (congrArg some (Int.add_zero N).symm)
      | dst => exact hD.trans (congrArg some (Int.add_zero D).symm)
  have hinv := Reach.inv hstart hne ht
  obtain ⟨m', -, hbalanced, hs, hd⟩ := hinv.declared
  have hle := hbalanced.src_le_dst
  have hlead := hbalanced.lead_le_maxSurge
  unfold Counters.lead at hlead
  refine ⟨_, _, hs, hd, by omega, by omega, fun now s' hs' hless => ?_⟩
  exact hinv.le_available_of_pass hne hs hs' hless

/-- Three replicas, at most two at once: a pass gives two to the destination, its controller reports
them, and the next pass takes two from the source. -/
theorem declared_within_corridor_two_of_three :
    let web : ResourceRef := .of .deployment "default" "web"
    let webCs : ResourceRef := .of .cloneSet "default" "web-cs"
    let m : Migration := .start ⟨7⟩ web webCs .deploymentToCloneSet ⟨3, 2, none⟩ ⟨1, 1⟩ 0
    let before : List Platform.Operation :=
      [.put ((Workload.named .deployment "default" "web").withReplicas (some 3)),
        .put (Workload.named .cloneSet "default" "web-cs"), .settleAll]
    let start : Stage := ⟨Registry.empty.register m, (Platform.empty 4).after before⟩
    let given := start.pass 5 ⟨7⟩ 10
    let t : Stage := ⟨given.registry, Platform.Operation.apply given.platform .settleAll⟩
    Reach 5 ⟨7⟩ web webCs start t ∧
      (t.pass 5 ⟨7⟩ 20).platform.declared? web = some 1 ∧
      ∃ s d, t.platform.declared? web = some s ∧ t.platform.declared? webCs = some d ∧
        3 + 0 ≤ s + d ∧ s + d ≤ 3 + 0 + 2 ∧
        ∀ now s', (t.pass 5 ⟨7⟩ now).platform.declared? web = some s' → s' < s →
          ∃ w, (t.pass 5 ⟨7⟩ now).platform.object? webCs = some w ∧
            3 + 0 ≤ s' + w.status.availableReplicas := by
  intro web webCs m before start given t
  have ht : Reach 5 ⟨7⟩ web webCs start t :=
    (Relation.ReflTransGen.single (.pass 10)).tail (.operate .settleAll trivial trivial)
  have hm : (Registry.empty.register m).get? ⟨7⟩ = some m := rfl
  have hN : ((Platform.empty 4).after before).declared? m.src = some 3 := by decide +kernel
  have hD : ((Platform.empty 4).after before).declared? m.dst = some 0 := by decide +kernel
  have hreduced : (t.pass 5 ⟨7⟩ 20).platform.declared? web = some 1 := by decide +kernel
  have hne : m.src ≠ m.dst := by decide
  exact ⟨ht, hreduced, declared_within_corridor hm rfl hne (by decide) (by decide) hN hD ht⟩

end Stage

end Handover
