import Handover.Proofs.Platform.Answers
import Handover.Proofs.Platform.Written

/-!
# The log as a replica

A `Follower` receives the events of a kind from an empty platform on, while operations of all sorts
are tried. As long as it does not lag, what it has received is the beginning of the log
(`Follower.Follows`), and the replay of a log has just the objects of its kind
(`Platform.get?_replay_log`). So a follower can tell the objects of its kind at every moment
(`Follower.log_is_faithful_replica`).
-/

namespace Handover

deriving instance DecidableEq for Delivery

namespace Platform

variable {p q : Platform} {events : List Event} {kind : WorkloadKind} {r : ResourceRef}

/-- The log of a kind after events from an empty platform on. -/
theorem Written.toList_log {capacity : Nat} (h : (empty capacity).Written p events)
    (kind : WorkloadKind) : (p.logs.get kind).toList = events.filter (·.object.kind = kind) := by
  have hempty : ((empty capacity).logs.get kind).toList = [] := by
    show ((PerKind.const #[]).get kind).toList = []
    rw [PerKind.get_const]
  rw [h.log_eq, hempty, List.nil_append]

/-- The replay of a log has just the objects of its kind. -/
theorem get?_replay_log {capacity : Nat} (h : (empty capacity).Written p events)
    (hp : p.Sound) (r : ResourceRef) (w : Workload) :
    (replay (p.logs.get kind).toList).get? r = some w ↔ p.object? r = some w ∧ w.kind = kind := by
  have hobjects : (replay events).get? r = p.object? r := by
    unfold object? replay
    rw [h.objects_eq]
    rfl
  rw [h.toList_log kind, get?_replay_filter, hobjects]
  constructor
  · intro hw
    split at hw
    · next hkind =>
      have href := w.kind?_ref
      rw [hp.ref_eq r w hw, hkind] at href
      exact ⟨hw, (Option.some.inj href).symm⟩
    · cases hw
  · rintro ⟨hw, rfl⟩
    rw [if_pos (hp.ref_eq r w hw ▸ w.kind?_ref), hw]

/-- An event that was not in a log is one of those that have been written. -/
theorem Written.of_getElem? (h : p.Written q events) {i : Nat} {e : Event}
    (hi : (p.logs.get kind).size ≤ i) (he : (q.logs.get kind)[i]? = some e) :
    e ∈ events ∧ e.object.kind = kind := by
  rw [← Array.getElem?_toList, h.log_eq, List.getElem?_append_right hi] at he
  have hmem := List.mem_filter.1 (List.mem_of_getElem? he)
  exact ⟨hmem.1, of_decide_eq_true hmem.2⟩

end Platform

/-! ## Followers -/

/-- A platform, a receiver of its events, what it has received, and whether it was ever told that it
missed something. -/
structure Follower where
  platform : Platform
  receiver : Receiver
  received : List Event
  lagged : Bool

namespace Follower

/-- A follower of a kind from an empty platform on. -/
def start (capacity : Nat) (kind : WorkloadKind) : Follower :=
  ⟨.empty capacity, (Platform.empty capacity).watch kind, [], false⟩

/-- Something that happens: an operation is tried, or the receiver asks for the next event. -/
inductive Step where
  | operate (op : Platform.Operation)
  | receive

/-- The follower after a step. -/
def next (f : Follower) : Step → Follower
  | .operate op => { f with platform := op.apply f.platform }
  | .receive =>
    match f.platform.receive f.receiver with
    | .event e rest => { f with receiver := rest, received := f.received ++ [e] }
    | .lagged _ rest => { f with receiver := rest, lagged := true }
    | .nothingYet | .closed => f

/-- The follower after some steps. -/
def after (f : Follower) (steps : List Step) : Follower :=
  steps.foldl next f

/-- The receiver is where it has got to, and it has received what was written up to there. -/
structure Follows (kind : WorkloadKind) (f : Follower) : Prop where
  receiver_eq : f.receiver = .following kind f.received.length
  received_eq : f.received = (f.platform.logs.get kind).toList.take f.received.length

variable {f : Follower} {kind : WorkloadKind} {step : Step} {steps : List Step}

theorem after_append (f : Follower) (steps rest : List Step) :
    f.after (steps ++ rest) = (f.after steps).after rest :=
  List.foldl_append

theorem follows_start (capacity : Nat) (kind : WorkloadKind) :
    (start capacity kind).Follows kind := by
  refine ⟨?_, rfl⟩
  show (Platform.empty capacity).watch kind = .following kind 0
  unfold Platform.watch
  rw [show (Platform.empty capacity).logs.get kind = #[] from PerKind.get_const _ kind]
  rfl

theorem Follows.length_le (h : f.Follows kind) :
    f.received.length ≤ (f.platform.logs.get kind).size := by
  have hlength := congrArg List.length h.received_eq
  rw [List.length_take, Array.length_toList] at hlength
  omega

/-! ## What a step does -/

/-- All that a step does to the platform is to try an operation. -/
theorem platform_next (f : Follower) (step : Step) :
    (f.next step).platform = f.platform ∨
      ∃ op : Platform.Operation, (f.next step).platform = op.apply f.platform := by
  cases step with
  | operate op => exact .inr ⟨op, rfl⟩
  | receive =>
    left
    unfold next
    cases f.platform.receive f.receiver <;> rfl

/-- A follower that has lagged has done so for good. -/
theorem lagged_next (h : f.lagged = true) (step : Step) : (f.next step).lagged = true := by
  cases step with
  | operate op => exact h
  | receive =>
    unfold next
    cases f.platform.receive f.receiver with
    | lagged missed rest => rfl
    | event e rest => exact h
    | nothingYet => exact h
    | closed => exact h

theorem Follows.operate (h : f.Follows kind) (hp : f.platform.Sound) (op : Platform.Operation) :
    (f.next (.operate op)).Follows kind := by
  refine ⟨h.receiver_eq, ?_⟩
  obtain ⟨events, hwritten, -⟩ := op.exists_written hp
  -- what has been received lies before the new events
  show f.received = ((op.apply f.platform).logs.get kind).toList.take f.received.length
  have hle : f.received.length ≤ (f.platform.logs.get kind).toList.length := h.length_le
  rw [hwritten.log_eq, List.take_append_of_le_length hle]
  exact h.received_eq

theorem Follows.receive (h : f.Follows kind) (hlag : (f.next .receive).lagged = false) :
    (f.next .receive).Follows kind := by
  have hcases := f.platform.receive_following_cases h.length_le
  rw [← h.receiver_eq] at hcases
  rcases hcases with ⟨missed, oldest, -, -, hreceive⟩ | ⟨e, he, hreceive⟩ | ⟨-, hreceive⟩
  · simp only [next, hreceive] at hlag
    cases hlag
  · simp only [next, hreceive]
    refine ⟨by rw [List.length_append, List.length_singleton], ?_⟩
    rw [← Array.getElem?_toList] at he
    rw [List.length_append, List.length_singleton, List.take_add_one, he, ← h.received_eq]
    rfl
  · simp only [next, hreceive]
    exact h

/-! ## Runs -/

/-- All that a run does to the platform is to try operations. -/
theorem exists_platform_after (f : Follower) (steps : List Step) :
    ∃ ops, (f.after steps).platform = f.platform.after ops := by
  induction steps generalizing f with
  | nil => exact ⟨[], rfl⟩
  | cons step rest ih =>
    obtain ⟨ops, hops⟩ := ih (f.next step)
    rcases f.platform_next step with hsame | ⟨op, hop⟩
    · rw [hsame] at hops
      exact ⟨ops, hops⟩
    · rw [hop] at hops
      exact ⟨op :: ops, hops⟩

theorem evolves_after (f : Follower) (steps : List Step) :
    f.platform.Evolves (f.after steps).platform := by
  obtain ⟨ops, hops⟩ := f.exists_platform_after steps
  rw [hops]
  exact f.platform.evolves_after ops

theorem exists_written_after (hp : f.platform.Sound) (steps : List Step) :
    ∃ events, f.platform.Written (f.after steps).platform events := by
  obtain ⟨ops, hops⟩ := f.exists_platform_after steps
  rw [hops]
  exact Platform.exists_written_after hp ops

theorem lagged_after (h : f.lagged = true) (steps : List Step) : (f.after steps).lagged = true := by
  induction steps generalizing f with
  | nil => exact h
  | cons step rest ih => exact ih (lagged_next h step)

/-- A follower that has not lagged follows. -/
theorem Follows.after (h : f.Follows kind) (hp : f.platform.Sound) (steps : List Step)
    (hlag : (f.after steps).lagged = false) : (f.after steps).Follows kind := by
  induction steps generalizing f with
  | nil => exact h
  | cons step rest ih =>
    have hnext : (f.next step).platform.Sound := (evolves_after f [step]).sound hp
    refine ih ?_ hnext hlag
    cases step with
    | operate op => exact h.operate hp op
    | receive =>
      refine h.receive (Bool.eq_false_iff.2 fun hlagged => ?_)
      -- had it lagged now, it would have in the end
      exact Bool.false_ne_true (hlag.symm.trans (lagged_after hlagged rest))

/-- What a follower has received by the end tells the objects at every moment before: the replay of
the events that were written up to then has just the objects of the kind. -/
theorem get?_replay_take {capacity : Nat} {steps before rest : List Step}
    (h : ((start capacity kind).after steps).lagged = false) (hsplit : steps = before ++ rest)
    (hle : (((start capacity kind).after before).platform.logs.get kind).size ≤
      ((start capacity kind).after steps).received.length) (r : ResourceRef) (w : Workload) :
    (replay (((start capacity kind).after steps).received.take
        (((start capacity kind).after before).platform.logs.get kind).size)).get? r = some w ↔
      ((start capacity kind).after before).platform.object? r = some w ∧ w.kind = kind := by
  have hstart : (start capacity kind).platform.Sound := Platform.sound_empty capacity
  have hfollows := (follows_start capacity kind).after hstart steps h
  have hmoment : ((start capacity kind).after before).platform.Sound :=
    (evolves_after _ before).sound hstart
  obtain ⟨events, hevents⟩ := exists_written_after hstart before
  obtain ⟨later, hlater⟩ := exists_written_after hmoment rest
  rw [← after_append, ← hsplit] at hlater
  -- the log of the moment is the beginning of the log in the end
  rw [hfollows.received_eq, List.take_take, Nat.min_eq_left hle, hlater.log_eq,
    ← Array.length_toList, List.take_left]
  exact Platform.get?_replay_log hevents hmoment r w

/-- Whatever capacity a platform has, whatever operations are tried on it, and whenever the receiver
asks: as long as it was never told that it missed something, a receiver from the start on gets
events whose replay has just the objects of its kind, at every moment from the beginning to the end
and in particular whenever it is told that nothing more has come. The versions in these events grow.
Every operation writes to the log of a kind events about objects of that kind, which say that the
object was added just if it is not there at that moment; and an operation that is refused writes no
event and changes neither objects nor the next version nor the deletions, and of the awaited
failures it uses up at most the first one, and that only if it is an update. -/
theorem log_is_faithful_replica (capacity : Nat) (kind : WorkloadKind) (steps : List Step)
    (h : ((start capacity kind).after steps).lagged = false) :
    let f := (start capacity kind).after steps
    (f.platform.receive f.receiver = .nothingYet →
      ∀ r w, (replay f.received).get? r = some w ↔
        f.platform.object? r = some w ∧ w.kind = kind) ∧
    (∀ before rest, steps = before ++ rest →
      let p := ((start capacity kind).after before).platform
      let written := (p.logs.get kind).size
      written ≤ f.received.length →
        ∀ r w, (replay (f.received.take written)).get? r = some w ↔
          p.object? r = some w ∧ w.kind = kind) ∧
    (storedVersions f.received).Pairwise (· < ·) ∧
    ∀ before op rest, steps = before ++ .operate op :: rest →
      let p := ((start capacity kind).after before).platform
      let q := op.apply p
      (∀ other i e, (p.logs.get other).size ≤ i → (q.logs.get other)[i]? = some e →
        e.object.kind = other ∧ (e.change = .added ↔ p.object? e.object.ref = none)) ∧
      (op.Refused p →
        q.logs = p.logs ∧ q.objects = p.objects ∧ q.nextVersion = p.nextVersion ∧
          q.deletions = p.deletions ∧
          (q.failures = p.failures ∨
            ∃ w e, op = .update w ∧ p.failures = e :: q.failures)) := by
  intro f
  have hstart : (start capacity kind).platform.Sound := Platform.sound_empty capacity
  have hfollows : f.Follows kind := (follows_start capacity kind).after hstart steps h
  refine ⟨?_, ?_, ?_, ?_⟩
  · intro hnothing r w
    have hsize : (f.platform.logs.get kind).size = f.received.length := by
      rw [hfollows.receiver_eq] at hnothing
      rcases f.platform.receive_following_cases hfollows.length_le with
        ⟨_, _, -, -, hreceive⟩ | ⟨_, -, hreceive⟩ | ⟨hsize, -⟩
      · rw [hnothing] at hreceive
        cases hreceive
      · rw [hnothing] at hreceive
        cases hreceive
      · exact hsize
    have hend := get?_replay_take h (List.append_nil steps).symm hsize.le r w
    rwa [hsize, List.take_length] at hend
  · intro before rest hsplit p written hle r w
    exact get?_replay_take h hsplit hle r w
  · obtain ⟨events, hevents⟩ := exists_written_after hstart steps
    rw [hfollows.received_eq, hevents.toList_log kind]
    have hsublist := (List.take_sublist f.received.length _).trans
      (List.filter_sublist (p := fun e => e.object.kind = kind) (l := events))
    exact hevents.increasing.sublist (storedVersions_sublist hsublist)
  · intro before op rest hsplit p q
    have hp : p.Sound := (evolves_after _ before).sound hstart
    refine ⟨?_, ?_⟩
    · intro other i e hi he
      obtain ⟨events, hwritten, hmarked⟩ := op.exists_written hp
      obtain ⟨hmem, hother⟩ := hwritten.of_getElem? hi he
      exact ⟨hother, hmarked e hmem⟩
    · intro hrefused
      rcases Platform.Operation.apply_of_refused hrefused with hsame | ⟨w, e, others, hop, hp, hq⟩
      · rw [show q = p from hsame]
        exact ⟨rfl, rfl, rfl, rfl, .inl rfl⟩
      · rw [show q = { p with failures := others } from hq]
        exact ⟨rfl, rfl, rfl, rfl, .inr ⟨w, e, hop, hp⟩⟩

/-- A deployment is created, settled and deleted, and after a refused update created again; all the
while the receiver of a platform that retains two events asks in time. -/
theorem log_is_faithful_replica_recreated :
    let web := Workload.named .deployment "default" "web"
    let before : List Step :=
      [.operate (.create web), .receive, .operate (.settle web.ref), .receive]
    let op : Platform.Operation := .update web
    let rest : List Step :=
      [.operate (.delete web.ref .orphan), .receive, .operate (.create web), .receive]
    let f := (start 2 .deployment).after (before ++ .operate op :: rest)
    let p := ((start 2 .deployment).after before).platform
    f.lagged = false ∧ f.received.map (·.change) = [.added, .modified, .deleted, .added] ∧
      op.Refused p ∧ (op.apply p).logs = p.logs ∧
      (replay f.received).get? web.ref = some (web.stamped 1 3) ∧
      ∃ w, (replay (f.received.take (p.logs.get .deployment).size)).get? web.ref = some w ∧
        w.metadata.resourceVersion = 2 := by
  intro web before op rest f p
  have hlag : f.lagged = false := by decide +kernel
  have hrefused : op.Refused p := by decide +kernel
  have hnothing : f.platform.receive f.receiver = .nothingYet := by decide +kernel
  obtain ⟨hend, hmoments, -, hops⟩ := log_is_faithful_replica 2 .deployment _ hlag
  refine ⟨hlag, by decide +kernel, hrefused, ?_, ?_, ?_⟩
  · exact ((hops before op rest rfl).2 hrefused).1
  · exact (hend hnothing web.ref (web.stamped 1 3)).2 ⟨by decide +kernel, rfl⟩
  · refine ⟨(web.stamped 1 2).withStatus ⟨1, 0, 0⟩, ?_, rfl⟩
    have hmoment := hmoments before (.operate op :: rest) rfl (by decide +kernel) web.ref
      ((web.stamped 1 2).withStatus ⟨1, 0, 0⟩)
    exact hmoment.2 ⟨by decide +kernel, rfl⟩

end Follower

end Handover
