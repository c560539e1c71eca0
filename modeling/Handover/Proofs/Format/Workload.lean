import Handover.Proofs.Format
import Handover.Workload.Format

/-!
# The format of workload objects

The names of an object, its kind, the type of an update strategy and the three numbers of a status
have to be there; all other fields may be left out, at every level. The templates of a
specification are any JSON values. They are read back as they were as far as their numbers of
double precision last.
-/

namespace Handover

namespace Metadata

/-- Metadata whose numbers fit 64 bits. -/
structure InRange (m : Metadata) : Prop where
  generation : IntRange.signed64.contains m.generation = true
  resourceVersion : IntRange.unsigned64.contains m.resourceVersion = true

/-- The fields of metadata, as they are written. -/
def fields (m : Metadata) : List (String × Json) :=
  [("namespace", .str m.ns),
   ("name", .str m.name),
   ("labels", .ofLabels m.labels),
   ("annotations", .ofLabels m.annotations),
   ("finalizers", .arr (m.finalizers.map .str)),
   ("generation", .int m.generation),
   ("resourceVersion", .int m.resourceVersion)]

/-- All fields of metadata but the two names may be left out. -/
def shape : Shape :=
  .record
    [("namespace", .required, .leaf),
     ("name", .required, .leaf),
     ("labels", .optional, .texts),
     ("annotations", .optional, .texts),
     ("finalizers", .optional, .leaf),
     ("generation", .optional, .leaf),
     ("resourceVersion", .optional, .leaf)]

/-- Metadata whose written form was edited. -/
def reset (e : Edit) (m : Metadata) : Metadata where
  ns := m.ns
  name := m.name
  labels := e.leave "labels" .empty m.labels
  annotations := e.leave "annotations" .empty m.annotations
  finalizers := e.leave "finalizers" [] m.finalizers
  generation := e.leave "generation" 0 m.generation
  resourceVersion := e.leave "resourceVersion" 0 m.resourceVersion

theorem ofJson?_edited {m : Metadata} (h : m.InRange) {e : Edit} (he : e.Permitted shape) :
    ofJson? (e.apply m.toJson) = some (m.reset e) := by
  have hsorted : Keyed.Sorted (Keyed.ofEntries m.fields) := Keyed.sorted_ofEntries m.fields
  rw [show m.toJson = .obj (Keyed.ofEntries m.fields) from rfl, Edit.apply_obj]
  refine Option.bind_eq_some_iff.2 ⟨_, Json.Record.required_leaf hsorted (.str m.ns)
    (he.at (by simp)) (by simp [fields]) rfl, ?_⟩
  refine Option.bind_eq_some_iff.2 ⟨_, Json.Record.required_leaf hsorted (.str m.name)
    (he.at (by simp)) (by simp [fields]) rfl, ?_⟩
  refine Option.bind_eq_some_iff.2 ⟨_, Json.Record.defaulted_unedited hsorted .texts (by simp)
    (.ofLabels m.labels) (he.at (by simp)) (by simp [fields]) (Json.labels?_ofLabels m.labels), ?_⟩
  refine Option.bind_eq_some_iff.2 ⟨_, Json.Record.defaulted_unedited hsorted .texts (by simp)
    (.ofLabels m.annotations) (he.at (by simp)) (by simp [fields])
    (Json.labels?_ofLabels m.annotations), ?_⟩
  refine Option.bind_eq_some_iff.2 ⟨_, Json.Record.defaulted_leaf hsorted
    (.arr (m.finalizers.map .str)) (he.at (by simp)) (by simp [fields])
    (Json.list?_map fun _ _ => rfl), ?_⟩
  refine Option.bind_eq_some_iff.2 ⟨_, Json.Record.defaulted_leaf hsorted (.int m.generation)
    (he.at (by simp)) (by simp [fields]) (Json.ranged?_int h.generation), ?_⟩
  refine Option.bind_eq_some_iff.2 ⟨_, Json.Record.defaulted_leaf hsorted (.int m.resourceVersion)
    (he.at (by simp)) (by simp [fields]) (Json.nat64?_int h.resourceVersion), ?_⟩
  rfl

theorem holds_toJson (m : Metadata) : shape.Holds m.toJson :=
  Shape.holds_ofFields rfl (by simp) (by simp)

theorem reset_bare (e : Edit) (m : Metadata) : m.reset e.bare = m.reset e := by
  simp [reset]

theorem within_toJson {m : Metadata} (h : m.InRange) (depth : Nat) (good : Double → Prop) :
    m.toJson.Within (depth + 2) good := by
  have hfinalizers : (Json.arr (m.finalizers.map .str)).Within (depth + 1) good :=
    Json.within_arr_iff.2 (List.forall_mem_map.2 fun s _ => Json.within_str s)
  refine Json.within_ofFields ?_
  simp [hfinalizers, Json.within_int (Json.Fits.of_signed64 h.generation),
    Json.within_int (Json.Fits.of_unsigned64 h.resourceVersion)]

theorem inRange_of_ofJson? {j : Json} {m : Metadata} (h : ofJson? j = some m) : m.InRange := by
  obtain ⟨r, -, h⟩ := Option.bind_eq_some_iff.1 h
  obtain ⟨ns, -, h⟩ := Option.bind_eq_some_iff.1 h
  obtain ⟨name, -, h⟩ := Option.bind_eq_some_iff.1 h
  obtain ⟨labels, -, h⟩ := Option.bind_eq_some_iff.1 h
  obtain ⟨annotations, -, h⟩ := Option.bind_eq_some_iff.1 h
  obtain ⟨finalizers, -, h⟩ := Option.bind_eq_some_iff.1 h
  obtain ⟨generation, hgeneration, h⟩ := Option.bind_eq_some_iff.1 h
  obtain ⟨resourceVersion, hversion, h⟩ := Option.bind_eq_some_iff.1 h
  obtain rfl := Option.some.inj h
  exact
    { generation :=
        Json.Record.forall_of_defaulted hgeneration (by decide) fun _ _ _ =>
          Json.contains_of_ranged?
      resourceVersion :=
        Json.Record.forall_of_defaulted hversion (by decide) fun _ _ _ => Json.contains_of_nat64? }

end Metadata

namespace RollingUpdate

/-- Bounds of a rolling update whose partition fits 32 bits. -/
structure InRange (u : RollingUpdate) : Prop where
  partition : ∀ n ∈ u.partition, IntRange.signed32.contains n = true

/-- The fields of the bounds of a rolling update, as they are written. -/
def fields (u : RollingUpdate) : List (String × Json) :=
  [("maxUnavailable", .ofOption .str u.maxUnavailable),
   ("maxSurge", .ofOption .str u.maxSurge),
   ("partition", .ofOption .int u.partition)]

/-- Every bound of a rolling update may be left out. -/
def shape : Shape :=
  .record
    [("maxUnavailable", .optional, .leaf),
     ("maxSurge", .optional, .leaf),
     ("partition", .optional, .leaf)]

/-- Bounds of a rolling update whose written form was edited. -/
def reset (e : Edit) (u : RollingUpdate) : RollingUpdate where
  maxUnavailable := e.leave "maxUnavailable" none u.maxUnavailable
  maxSurge := e.leave "maxSurge" none u.maxSurge
  partition := e.leave "partition" none u.partition

theorem ofJson?_edited {u : RollingUpdate} (h : u.InRange) {e : Edit} (he : e.Permitted shape) :
    ofJson? (e.apply u.toJson) = some (u.reset e) := by
  have hsorted : Keyed.Sorted (Keyed.ofEntries u.fields) := Keyed.sorted_ofEntries u.fields
  rw [show u.toJson = .obj (Keyed.ofEntries u.fields) from rfl, Edit.apply_obj]
  refine Option.bind_eq_some_iff.2 ⟨_, Json.Record.optional_leaf hsorted .str u.maxUnavailable
    (he.at (by simp)) (by simp [fields]) (by simp) fun _ _ => rfl, ?_⟩
  refine Option.bind_eq_some_iff.2 ⟨_, Json.Record.optional_leaf hsorted .str u.maxSurge
    (he.at (by simp)) (by simp [fields]) (by simp) fun _ _ => rfl, ?_⟩
  refine Option.bind_eq_some_iff.2 ⟨_, Json.Record.optional_leaf hsorted .int u.partition
    (he.at (by simp)) (by simp [fields]) (by simp)
    fun n hn => Json.ranged?_int (h.partition n hn), ?_⟩
  rfl

theorem holds_toJson (u : RollingUpdate) : shape.Holds u.toJson :=
  Shape.holds_ofFields rfl (by simp) (by simp)

theorem reset_bare (e : Edit) (u : RollingUpdate) : u.reset e.bare = u.reset e := by
  simp [reset]

theorem within_toJson {u : RollingUpdate} (h : u.InRange) (depth : Nat) (good : Double → Prop) :
    u.toJson.Within (depth + 1) good := by
  refine Json.within_ofFields ?_
  simp [Json.within_ofOption_int h.partition]

theorem inRange_of_ofJson? {j : Json} {u : RollingUpdate} (h : ofJson? j = some u) :
    u.InRange := by
  obtain ⟨r, -, h⟩ := Option.bind_eq_some_iff.1 h
  obtain ⟨maxUnavailable, -, h⟩ := Option.bind_eq_some_iff.1 h
  obtain ⟨maxSurge, -, h⟩ := Option.bind_eq_some_iff.1 h
  obtain ⟨partition, hpartition, h⟩ := Option.bind_eq_some_iff.1 h
  obtain rfl := Option.some.inj h
  exact ⟨Json.Record.forall_of_optional hpartition fun _ _ _ => Json.contains_of_ranged?⟩

end RollingUpdate

namespace UpdateStrategy

/-- An update strategy whose bounds are in range. -/
structure InRange (u : UpdateStrategy) : Prop where
  rollingUpdate : ∀ b ∈ u.rollingUpdate, b.InRange

/-- The fields of an update strategy, as they are written. -/
def fields (u : UpdateStrategy) : List (String × Json) :=
  [("type", .str u.type),
   ("rollingUpdate", .ofOption RollingUpdate.toJson u.rollingUpdate),
   ("paused", .bool u.paused)]

/-- All of an update strategy but its type may be left out. -/
def shape : Shape :=
  .record
    [("type", .required, .leaf),
     ("rollingUpdate", .optional, RollingUpdate.shape),
     ("paused", .optional, .leaf)]

/-- An update strategy whose written form was edited. -/
def reset (e : Edit) (u : UpdateStrategy) : UpdateStrategy where
  type := u.type
  rollingUpdate := e.settle "rollingUpdate" none (fun e => Option.map (·.reset e)) u.rollingUpdate
  paused := e.leave "paused" false u.paused

theorem reset_keep (u : UpdateStrategy) : u.reset .keep = u := by
  obtain ⟨type, rollingUpdate, paused⟩ := u
  cases rollingUpdate <;> rfl

theorem nullable?_rollingUpdate {o : Option RollingUpdate} (h : ∀ b ∈ o, b.InRange) {e : Edit}
    (he : e.Permitted RollingUpdate.shape) :
    Json.nullable? RollingUpdate.ofJson? (e.apply (.ofOption RollingUpdate.toJson o)) =
      some (o.map (·.reset e)) := by
  cases o with
  | none => cases e <;> rfl
  | some b =>
    have hread := RollingUpdate.ofJson?_edited (h b rfl) he
    rw [show b.toJson = .obj (Keyed.ofEntries b.fields) from rfl, Edit.apply_obj] at hread
    rw [Json.ofOption, show b.toJson = .obj (Keyed.ofEntries b.fields) from rfl, Edit.apply_obj,
      Json.nullable?, hread]
    · rfl
    · simp

theorem ofJson?_edited {u : UpdateStrategy} (h : u.InRange) {e : Edit} (he : e.Permitted shape) :
    ofJson? (e.apply u.toJson) = some (u.reset e) := by
  have hsorted : Keyed.Sorted (Keyed.ofEntries u.fields) := Keyed.sorted_ofEntries u.fields
  have hrolling : e.PermittedAt "rollingUpdate" .optional RollingUpdate.shape := he.at (by simp)
  rw [show u.toJson = .obj (Keyed.ofEntries u.fields) from rfl, Edit.apply_obj]
  refine Option.bind_eq_some_iff.2 ⟨_, Json.Record.required_leaf hsorted (.str u.type)
    (he.at (by simp)) (by simp [fields]) rfl, ?_⟩
  refine Option.bind_eq_some_iff.2 ⟨_, Json.Record.optional_edited hsorted
    (fun e => Option.map (·.reset e)) u.rollingUpdate hrolling (by simp [fields])
    (nullable?_rollingUpdate h.rollingUpdate hrolling.within), ?_⟩
  refine Option.bind_eq_some_iff.2 ⟨_, Json.Record.defaulted_leaf hsorted (.bool u.paused)
    (he.at (by simp)) (by simp [fields]) rfl, ?_⟩
  rfl

theorem holds_toJson (u : UpdateStrategy) : shape.Holds u.toJson :=
  Shape.holds_ofFields rfl (by simp)
    (by simp [Shape.holds_ofOption fun b _ => RollingUpdate.holds_toJson b])

theorem reset_bare (e : Edit) (u : UpdateStrategy) : u.reset e.bare = u.reset e := by
  simp [reset, Edit.settle_bare, RollingUpdate.reset_bare]

theorem within_toJson {u : UpdateStrategy} (h : u.InRange) (depth : Nat) (good : Double → Prop) :
    u.toJson.Within (depth + 2) good := by
  have hrolling : (Json.ofOption RollingUpdate.toJson u.rollingUpdate).Within (depth + 1) good :=
    Json.within_ofOption fun b hb => RollingUpdate.within_toJson (h.rollingUpdate b hb) depth good
  refine Json.within_ofFields ?_
  simp [hrolling]

theorem inRange_of_ofJson? {j : Json} {u : UpdateStrategy} (h : ofJson? j = some u) :
    u.InRange := by
  obtain ⟨r, -, h⟩ := Option.bind_eq_some_iff.1 h
  obtain ⟨type, -, h⟩ := Option.bind_eq_some_iff.1 h
  obtain ⟨rollingUpdate, hrolling, h⟩ := Option.bind_eq_some_iff.1 h
  obtain ⟨paused, -, h⟩ := Option.bind_eq_some_iff.1 h
  obtain rfl := Option.some.inj h
  exact ⟨Json.Record.forall_of_optional hrolling fun _ _ _ => RollingUpdate.inRange_of_ofJson?⟩

end UpdateStrategy

namespace Status

/-- A status whose numbers fit 64 and 32 bits. -/
structure InRange (s : Status) : Prop where
  observedGeneration : IntRange.signed64.contains s.observedGeneration = true
  replicas : IntRange.signed32.contains s.replicas = true
  availableReplicas : IntRange.signed32.contains s.availableReplicas = true

/-- The fields of a status, as they are written. -/
def fields (s : Status) : List (String × Json) :=
  [("observedGeneration", .int s.observedGeneration),
   ("replicas", .int s.replicas),
   ("availableReplicas", .int s.availableReplicas)]

/-- A status has to be whole. -/
def shape : Shape :=
  .record
    [("observedGeneration", .required, .leaf),
     ("replicas", .required, .leaf),
     ("availableReplicas", .required, .leaf)]

theorem ofJson?_edited {s : Status} (h : s.InRange) {e : Edit} (he : e.Permitted shape) :
    ofJson? (e.apply s.toJson) = some s := by
  have hsorted : Keyed.Sorted (Keyed.ofEntries s.fields) := Keyed.sorted_ofEntries s.fields
  rw [show s.toJson = .obj (Keyed.ofEntries s.fields) from rfl, Edit.apply_obj]
  refine Option.bind_eq_some_iff.2 ⟨_, Json.Record.required_leaf hsorted
    (.int s.observedGeneration) (he.at (by simp)) (by simp [fields])
    (Json.ranged?_int h.observedGeneration), ?_⟩
  refine Option.bind_eq_some_iff.2 ⟨_, Json.Record.required_leaf hsorted (.int s.replicas)
    (he.at (by simp)) (by simp [fields]) (Json.ranged?_int h.replicas), ?_⟩
  refine Option.bind_eq_some_iff.2 ⟨_, Json.Record.required_leaf hsorted (.int s.availableReplicas)
    (he.at (by simp)) (by simp [fields]) (Json.ranged?_int h.availableReplicas), ?_⟩
  rfl

theorem holds_toJson (s : Status) : shape.Holds s.toJson :=
  Shape.holds_ofFields rfl (by simp) (by simp)

theorem within_toJson {s : Status} (h : s.InRange) (depth : Nat) (good : Double → Prop) :
    s.toJson.Within (depth + 1) good := by
  refine Json.within_ofFields ?_
  simp [Json.within_int (Json.Fits.of_signed64 h.observedGeneration),
    Json.within_int (Json.Fits.of_signed32 h.replicas),
    Json.within_int (Json.Fits.of_signed32 h.availableReplicas)]

theorem inRange_of_ofJson? {j : Json} {s : Status} (h : ofJson? j = some s) : s.InRange := by
  obtain ⟨r, -, h⟩ := Option.bind_eq_some_iff.1 h
  obtain ⟨observedGeneration, hobserved, h⟩ := Option.bind_eq_some_iff.1 h
  obtain ⟨replicas, hreplicas, h⟩ := Option.bind_eq_some_iff.1 h
  obtain ⟨availableReplicas, havailable, h⟩ := Option.bind_eq_some_iff.1 h
  obtain rfl := Option.some.inj h
  obtain ⟨_, -, hobserved⟩ := Json.Record.get?_of_required hobserved
  obtain ⟨_, -, hreplicas⟩ := Json.Record.get?_of_required hreplicas
  obtain ⟨_, -, havailable⟩ := Json.Record.get?_of_required havailable
  exact ⟨Json.contains_of_ranged? hobserved, Json.contains_of_ranged? hreplicas,
    Json.contains_of_ranged? havailable⟩

end Status

namespace Spec

/-- A specification whose numbers fit 32 bits and whose templates are well formed. -/
structure InRange (s : Spec) : Prop where
  replicas : ∀ n ∈ s.replicas, IntRange.signed32.contains n = true
  template : s.template.WellFormed
  updateStrategy : s.updateStrategy.InRange
  minReadySeconds : IntRange.signed32.contains s.minReadySeconds = true
  revisionHistoryLimit : ∀ n ∈ s.revisionHistoryLimit, IntRange.signed32.contains n = true
  volumeClaimTemplates : (Json.arr s.volumeClaimTemplates).WellFormed

/-- The fields of a specification, as they are written. -/
def fields (s : Spec) : List (String × Json) :=
  [("replicas", .ofOption .int s.replicas),
   ("selector", .ofLabels s.selector),
   ("template", s.template),
   ("updateStrategy", s.updateStrategy.toJson),
   ("minReadySeconds", .int s.minReadySeconds),
   ("revisionHistoryLimit", .ofOption .int s.revisionHistoryLimit),
   ("serviceName", .ofOption .str s.serviceName),
   ("volumeClaimTemplates", .arr s.volumeClaimTemplates),
   ("podManagementPolicy", .ofOption .str s.podManagementPolicy)]

/-- Every field of a specification may be left out. -/
def shape : Shape :=
  .record
    [("replicas", .optional, .leaf),
     ("selector", .optional, .texts),
     ("template", .optional, .leaf),
     ("updateStrategy", .optional, UpdateStrategy.shape),
     ("minReadySeconds", .optional, .leaf),
     ("revisionHistoryLimit", .optional, .leaf),
     ("serviceName", .optional, .leaf),
     ("volumeClaimTemplates", .optional, .leaf),
     ("podManagementPolicy", .optional, .leaf)]

/-- A specification whose written form was edited. -/
def reset (e : Edit) (s : Spec) : Spec where
  replicas := e.leave "replicas" none s.replicas
  selector := e.leave "selector" .empty s.selector
  template := e.leave "template" .null s.template
  updateStrategy :=
    e.settle "updateStrategy" ⟨"", none, false⟩ UpdateStrategy.reset s.updateStrategy
  minReadySeconds := e.leave "minReadySeconds" 0 s.minReadySeconds
  revisionHistoryLimit := e.leave "revisionHistoryLimit" none s.revisionHistoryLimit
  serviceName := e.leave "serviceName" none s.serviceName
  volumeClaimTemplates := e.leave "volumeClaimTemplates" [] s.volumeClaimTemplates
  podManagementPolicy := e.leave "podManagementPolicy" none s.podManagementPolicy

theorem reset_keep (s : Spec) : s.reset .keep = s :=
  congrArg (fun u => { s with updateStrategy := u }) (UpdateStrategy.reset_keep s.updateStrategy)

theorem ofJson?_edited {s : Spec} (h : s.InRange) {e : Edit} (he : e.Permitted shape) :
    ofJson? (e.apply s.toJson) = some (s.reset e) := by
  have hsorted : Keyed.Sorted (Keyed.ofEntries s.fields) := Keyed.sorted_ofEntries s.fields
  have hstrategy : e.PermittedAt "updateStrategy" .optional UpdateStrategy.shape :=
    he.at (by simp)
  rw [show s.toJson = .obj (Keyed.ofEntries s.fields) from rfl, Edit.apply_obj]
  refine Option.bind_eq_some_iff.2 ⟨_, Json.Record.optional_leaf hsorted .int s.replicas
    (he.at (by simp)) (by simp [fields]) (by simp)
    fun n hn => Json.ranged?_int (h.replicas n hn), ?_⟩
  refine Option.bind_eq_some_iff.2 ⟨_, Json.Record.defaulted_unedited hsorted .texts (by simp)
    (.ofLabels s.selector) (he.at (by simp)) (by simp [fields])
    (Json.labels?_ofLabels s.selector), ?_⟩
  refine Option.bind_eq_some_iff.2 ⟨_, Json.Record.defaulted_leaf hsorted s.template
    (he.at (by simp)) (by simp [fields]) rfl, ?_⟩
  refine Option.bind_eq_some_iff.2 ⟨_, Json.Record.defaulted_edited hsorted UpdateStrategy.reset
    s.updateStrategy _ hstrategy (by simp [fields])
    (UpdateStrategy.ofJson?_edited h.updateStrategy hstrategy.within), ?_⟩
  refine Option.bind_eq_some_iff.2 ⟨_, Json.Record.defaulted_leaf hsorted (.int s.minReadySeconds)
    (he.at (by simp)) (by simp [fields]) (Json.ranged?_int h.minReadySeconds), ?_⟩
  refine Option.bind_eq_some_iff.2 ⟨_, Json.Record.optional_leaf hsorted .int
    s.revisionHistoryLimit (he.at (by simp)) (by simp [fields]) (by simp)
    fun n hn => Json.ranged?_int (h.revisionHistoryLimit n hn), ?_⟩
  refine Option.bind_eq_some_iff.2 ⟨_, Json.Record.optional_leaf hsorted .str s.serviceName
    (he.at (by simp)) (by simp [fields]) (by simp) fun _ _ => rfl, ?_⟩
  refine Option.bind_eq_some_iff.2 ⟨_, Json.Record.defaulted_leaf hsorted
    (.arr s.volumeClaimTemplates) (he.at (by simp)) (by simp [fields])
    (Json.list?_some.2 rfl), ?_⟩
  refine Option.bind_eq_some_iff.2 ⟨_, Json.Record.optional_leaf hsorted .str
    s.podManagementPolicy (he.at (by simp)) (by simp [fields]) (by simp) fun _ _ => rfl, ?_⟩
  rfl

theorem holds_toJson (s : Spec) : shape.Holds s.toJson :=
  Shape.holds_ofFields rfl (by simp)
    (by simp [UpdateStrategy.holds_toJson s.updateStrategy])

theorem reset_bare (e : Edit) (s : Spec) : s.reset e.bare = s.reset e := by
  simp [reset, Edit.settle_bare, UpdateStrategy.reset_bare]

theorem within_toJson {s : Spec} (h : s.InRange) {depth : Nat} {good : Double → Prop}
    (htemplate : s.template.Within (depth + 2) good)
    (hclaims : (Json.arr s.volumeClaimTemplates).Within (depth + 2) good) :
    s.toJson.Within (depth + 3) good := by
  refine Json.within_ofFields ?_
  simp [Json.within_ofOption_int h.replicas, htemplate,
    UpdateStrategy.within_toJson h.updateStrategy,
    Json.within_int (Json.Fits.of_signed32 h.minReadySeconds),
    Json.within_ofOption_int h.revisionHistoryLimit, hclaims]

/-- How the fields of a specification are read that have a range or hold templates. -/
structure ReadFrom (r : Json.Record) (s : Spec) : Prop where
  replicas : r.optional 0 "replicas" Json.int32? = some s.replicas
  template : r.defaulted 2 "template" some .null = some s.template
  updateStrategy :
    r.defaulted 3 "updateStrategy" UpdateStrategy.ofJson? {} = some s.updateStrategy
  minReadySeconds : r.defaulted 4 "minReadySeconds" Json.int32? 0 = some s.minReadySeconds
  revisionHistoryLimit :
    r.optional 5 "revisionHistoryLimit" Json.int32? = some s.revisionHistoryLimit
  volumeClaimTemplates :
    r.defaulted 7 "volumeClaimTemplates" (Json.list? some) [] = some s.volumeClaimTemplates

theorem readFrom_of_ofJson? {j : Json} {s : Spec} (h : ofJson? j = some s) :
    ∃ r, j.record? 9 = some r ∧ ReadFrom r s := by
  obtain ⟨r, hr, h⟩ := Option.bind_eq_some_iff.1 h
  obtain ⟨replicas, hreplicas, h⟩ := Option.bind_eq_some_iff.1 h
  obtain ⟨selector, -, h⟩ := Option.bind_eq_some_iff.1 h
  obtain ⟨template, htemplate, h⟩ := Option.bind_eq_some_iff.1 h
  obtain ⟨updateStrategy, hstrategy, h⟩ := Option.bind_eq_some_iff.1 h
  obtain ⟨minReadySeconds, hseconds, h⟩ := Option.bind_eq_some_iff.1 h
  obtain ⟨revisionHistoryLimit, hlimit, h⟩ := Option.bind_eq_some_iff.1 h
  obtain ⟨serviceName, -, h⟩ := Option.bind_eq_some_iff.1 h
  obtain ⟨volumeClaimTemplates, hclaims, h⟩ := Option.bind_eq_some_iff.1 h
  obtain ⟨podManagementPolicy, -, h⟩ := Option.bind_eq_some_iff.1 h
  obtain rfl := Option.some.inj h
  exact ⟨r, hr, hreplicas, htemplate, hstrategy, hseconds, hlimit, hclaims⟩

/-- What a specification is read from holds its templates. -/
theorem within_of_ofJson? {j : Json} {s : Spec} {depth : Nat} {good : Double → Prop}
    (hj : j.Within (depth + 2) good) (h : ofJson? j = some s) :
    s.template.Within (depth + 1) good ∧
      (Json.arr s.volumeClaimTemplates).Within (depth + 1) good := by
  obtain ⟨r, hr, hread⟩ := readFrom_of_ofJson? h
  constructor
  · refine Json.Record.forall_of_defaulted hread.template Json.within_null fun k t hk ht => ?_
    obtain rfl := Option.some.inj ht
    exact Json.within_get? hj hr hk
  · refine Json.Record.forall_of_defaulted (P := fun items => (Json.arr items).Within _ good)
      hread.volumeClaimTemplates (Json.within_arr_iff.2 (by simp)) fun k items hk hitems => ?_
    rw [← Json.list?_some.1 hitems]
    exact Json.within_get? hj hr hk

theorem inRange_of_ofJson? {j : Json} {s : Spec} (hj : j.WellFormed) (h : ofJson? j = some s) :
    s.InRange := by
  have hwithin : j.Within (j.nesting + 2) fun _ => True := ⟨hj, by omega, fun _ _ => trivial⟩
  obtain ⟨htemplate, hclaims⟩ := within_of_ofJson? hwithin h
  obtain ⟨r, -, hread⟩ := readFrom_of_ofJson? h
  exact
    { replicas :=
        Json.Record.forall_of_optional hread.replicas fun _ _ _ => Json.contains_of_ranged?
      template := htemplate.wellFormed
      updateStrategy :=
        Json.Record.forall_of_defaulted hread.updateStrategy ⟨nofun⟩
          fun _ _ _ => UpdateStrategy.inRange_of_ofJson?
      minReadySeconds :=
        Json.Record.forall_of_defaulted hread.minReadySeconds (by decide)
          fun _ _ _ => Json.contains_of_ranged?
      revisionHistoryLimit :=
        Json.Record.forall_of_optional hread.revisionHistoryLimit
          fun _ _ _ => Json.contains_of_ranged?
      volumeClaimTemplates := hclaims.wellFormed }

/-- A specification that survives its own text has templates that do. -/
theorem within_of_json? {s : Spec} (hs : s.InRange) {depth : Nat} {j : Json}
    (hj : s.toJson.raw.json? (depth + 1) = some j) (h : ofJson? j = some s) :
    s.template.Within depth Double.Lasts ∧
      (Json.arr s.volumeClaimTemplates).Within depth Double.Lasts := by
  obtain ⟨fs, rfl, hfs⟩ := Json.exists_of_json?_obj (Keyed.sorted_ofEntries s.fields) hj
  obtain ⟨t, ht, htfind⟩ := hfs "template" s.template (by simp [fields])
  obtain ⟨c, hc, hcfind⟩ := hfs "volumeClaimTemplates" (.arr s.volumeClaimTemplates)
    (by simp [fields])
  obtain ⟨r, hr, hread⟩ := readFrom_of_ofJson? h
  obtain rfl := Option.some.inj hr
  -- the templates that were read are those that the written ones read as
  have htemplate := hread.template
  have hclaims := hread.volumeClaimTemplates
  rw [Json.Record.defaulted_named htfind] at htemplate
  rw [Json.Record.defaulted_named hcfind, Json.list?_some] at hclaims
  obtain rfl := Option.some.inj htemplate
  subst hclaims
  exact ⟨Json.within_of_json?_raw hs.template ht,
    Json.within_of_json?_raw hs.volumeClaimTemplates hc⟩

end Spec

namespace Workload

/-- An object whose numbers fit 64 and 32 bits and whose templates are well formed. -/
structure InRange (w : Workload) : Prop where
  metadata : w.metadata.InRange
  spec : w.spec.InRange
  status : w.status.InRange

/-- The fields of an object, as they are written. -/
def fields (w : Workload) : List (String × Json) :=
  [("kind", .str w.kind.label),
   ("metadata", w.metadata.toJson),
   ("spec", w.spec.toJson),
   ("status", w.status.toJson)]

/-- All of an object but its status has to be there. -/
def shape : Shape :=
  .record
    [("kind", .required, .choice),
     ("metadata", .required, Metadata.shape),
     ("spec", .required, Spec.shape),
     ("status", .optional, Status.shape)]

/-- An object whose written form was edited. -/
def reset (e : Edit) (w : Workload) : Workload where
  kind := w.kind
  metadata := w.metadata.reset (e.within "metadata")
  spec := w.spec.reset (e.within "spec")
  status := e.leave "status" ⟨0, 0, 0⟩ w.status

theorem reset_keep (w : Workload) : w.reset .keep = w :=
  congrArg (fun s => { w with spec := s }) (Spec.reset_keep w.spec)

theorem ofJson?_edited {w : Workload} (h : w.InRange) {e : Edit} (he : e.Permitted shape) :
    ofJson? (e.apply w.toJson) = some (w.reset e) := by
  have hsorted : Keyed.Sorted (Keyed.ofEntries w.fields) := Keyed.sorted_ofEntries w.fields
  have hmetadata : e.PermittedAt "metadata" .required Metadata.shape := he.at (by simp)
  have hspec : e.PermittedAt "spec" .required Spec.shape := he.at (by simp)
  have hstatus : e.PermittedAt "status" .optional Status.shape := he.at (by simp)
  rw [show w.toJson = .obj (Keyed.ofEntries w.fields) from rfl, Edit.apply_obj]
  refine Option.bind_eq_some_iff.2 ⟨_, Json.Record.required_unedited hsorted .choice (by simp)
    (.str w.kind.label) (he.at (by simp)) (by simp [fields])
    (WorkloadKind.ofLabel?_label w.kind), ?_⟩
  refine Option.bind_eq_some_iff.2 ⟨_, Json.Record.required_edited hsorted hmetadata
    (by simp [fields]) (Metadata.ofJson?_edited h.metadata hmetadata.within), ?_⟩
  refine Option.bind_eq_some_iff.2 ⟨_, Json.Record.required_edited hsorted hspec
    (by simp [fields]) (Spec.ofJson?_edited h.spec hspec.within), ?_⟩
  refine Option.bind_eq_some_iff.2 ⟨_, Json.Record.defaulted_edited hsorted (fun _ s => s)
    w.status _ hstatus (by simp [fields]) (Status.ofJson?_edited h.status hstatus.within), ?_⟩
  rfl

theorem holds_toJson (w : Workload) : shape.Holds w.toJson :=
  Shape.holds_ofFields rfl (by simp)
    (by simp [Metadata.holds_toJson w.metadata, Spec.holds_toJson w.spec,
      Status.holds_toJson w.status])

theorem reset_bare (e : Edit) (w : Workload) : w.reset e.bare = w.reset e := by
  simp [reset, Metadata.reset_bare, Spec.reset_bare]

theorem within_toJson {w : Workload} (h : w.InRange) {depth : Nat} {good : Double → Prop}
    (htemplate : w.spec.template.Within (depth + 2) good)
    (hclaims : (Json.arr w.spec.volumeClaimTemplates).Within (depth + 2) good) :
    w.toJson.Within (depth + 4) good := by
  refine Json.within_ofFields ?_
  simp [Metadata.within_toJson h.metadata, Spec.within_toJson h.spec htemplate hclaims,
    Status.within_toJson h.status]

theorem wellFormed_toJson {w : Workload} (h : w.InRange) : w.toJson.WellFormed := by
  -- any bound on the templates does, here the greater of their own two
  have within : ∀ j : Json, j.WellFormed → j.nesting ≤
      max w.spec.template.nesting (Json.arr w.spec.volumeClaimTemplates).nesting →
      j.Within (max w.spec.template.nesting (Json.arr w.spec.volumeClaimTemplates).nesting + 2)
        fun _ => True :=
    fun j hj hnesting => ⟨hj, by omega, fun _ _ => trivial⟩
  exact (within_toJson h (within _ h.spec.template (Nat.le_max_left ..))
    (within _ h.spec.volumeClaimTemplates (Nat.le_max_right ..))).wellFormed

/-- What an object is read from. -/
theorem exists_of_ofJson? {j : Json} {w : Workload} (h : ofJson? j = some w) :
    ∃ r, j.record? 4 = some r ∧
      (∃ k, r.get? 1 "metadata" = some k ∧ Metadata.ofJson? k = some w.metadata) ∧
      (∃ k, r.get? 2 "spec" = some k ∧ Spec.ofJson? k = some w.spec) ∧ w.status.InRange := by
  obtain ⟨r, hr, h⟩ := Option.bind_eq_some_iff.1 h
  obtain ⟨kind, -, h⟩ := Option.bind_eq_some_iff.1 h
  obtain ⟨metadata, hmetadata, h⟩ := Option.bind_eq_some_iff.1 h
  obtain ⟨spec, hspec, h⟩ := Option.bind_eq_some_iff.1 h
  obtain ⟨status, hstatus, h⟩ := Option.bind_eq_some_iff.1 h
  obtain rfl := Option.some.inj h
  exact ⟨r, hr, Json.Record.get?_of_required hmetadata, Json.Record.get?_of_required hspec,
    Json.Record.forall_of_defaulted hstatus ⟨by decide, by decide, by decide⟩
      fun _ _ _ => Status.inRange_of_ofJson?⟩

theorem inRange_of_ofJson? {j : Json} {w : Workload} (hj : j.WellFormed)
    (h : ofJson? j = some w) : w.InRange := by
  obtain ⟨r, hr, ⟨_, -, hmetadata⟩, ⟨k, hk, hspec⟩, hstatus⟩ := exists_of_ofJson? h
  have hwithin : j.Within (j.nesting + 1) fun _ => True :=
    ⟨hj, Nat.le_succ _, fun _ _ => trivial⟩
  exact
    { metadata := Metadata.inRange_of_ofJson? hmetadata
      spec := Spec.inRange_of_ofJson? (Json.within_get? hwithin hr hk).wellFormed hspec
      status := hstatus }

theorem nesting_toJson_le {j : Json} {w : Workload}
    (hj : j.Within Json.depthLimit fun _ => True) (h : ofJson? j = some w) :
    w.toJson.nesting ≤ Json.depthLimit := by
  obtain ⟨r, hr, -, ⟨k, hk, hspec⟩, -⟩ := exists_of_ofJson? h
  have hwithin : k.Within 126 fun _ => True := Json.within_get? hj hr hk
  obtain ⟨htemplate, hclaims⟩ := Spec.within_of_ofJson? hwithin hspec
  exact (within_toJson (inRange_of_ofJson? hj.wellFormed h) htemplate hclaims).nesting_le

theorem lasts_toJson {j : Json} {w : Workload} (hw : w.InRange)
    (hj : w.toJson.raw.json? Json.depthLimit = some j) (h : ofJson? j = some w) :
    w.toJson.Lasts := by
  obtain ⟨fs, rfl, hfs⟩ := Json.exists_of_json?_obj (Keyed.sorted_ofEntries w.fields) hj
  obtain ⟨s, hs, hsfind⟩ := hfs "spec" w.spec.toJson (by simp [fields])
  obtain ⟨r, hr, -, ⟨k, hk, hspec⟩, -⟩ := exists_of_ofJson? h
  obtain rfl := Option.some.inj hr
  obtain rfl := Option.some.inj (hsfind.symm.trans hk)
  obtain ⟨htemplate, hclaims⟩ := Spec.within_of_json? hw.spec hs hspec
  exact (within_toJson hw htemplate hclaims).lasts

/-- Objects as JSON. -/
def format : Format Workload where
  write := toJson
  read? := ofJson?
  InRange := InRange
  shape := shape
  reset := reset

theorem lawful_format : format.Lawful where
  wellFormed_write h := wellFormed_toJson h
  holds_write := holds_toJson
  inRange_of_read? hj h := inRange_of_ofJson? hj h
  shallow_write hj h := nesting_toJson_le hj h
  lasts_write hw hj h := lasts_toJson hw hj h
  read?_edited h he := ofJson?_edited h he
  reset_keep := reset_keep
  reset_bare := reset_bare

end Workload

end Handover
