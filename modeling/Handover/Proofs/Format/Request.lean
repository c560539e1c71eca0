import Handover.Proofs.Format
import Handover.Proofs.Json.Decode
import Handover.Request

/-!
# The format of requests

Every field of a request may be left out. A request left out in part is one whose missing fields
ask for nothing.
-/

namespace Handover

namespace Request

/-- A request whose numbers fit 32 bits. -/
structure InRange (r : Request) : Prop where
  replicas : ∀ n ∈ r.replicas, IntRange.signed32.contains n = true
  maxSurge : ∀ n ∈ r.maxSurge, IntRange.signed32.contains n = true
  timeoutSeconds : ∀ n ∈ r.timeoutSeconds, IntRange.signed32.contains n = true

/-- Every field of a request may be left out. -/
def shape : Shape :=
  .record
    [("replicas", .optional, .leaf),
     ("max_surge", .optional, .leaf),
     ("timeout_seconds", .optional, .leaf),
     ("copy_replicas", .optional, .leaf)]

/-- A request whose written form was edited. -/
def reset (e : Edit) (r : Request) : Request where
  replicas := e.leave "replicas" none r.replicas
  maxSurge := e.leave "max_surge" none r.maxSurge
  timeoutSeconds := e.leave "timeout_seconds" none r.timeoutSeconds
  copyReplicas := e.leave "copy_replicas" false r.copyReplicas

/-- The fields of a request, as they are written. -/
def fields (r : Request) : List (String × Json) :=
  [("replicas", .ofOption .int r.replicas),
   ("max_surge", .ofOption .int r.maxSurge),
   ("timeout_seconds", .ofOption .int r.timeoutSeconds),
   ("copy_replicas", .bool r.copyReplicas)]

theorem ofJson?_edited {r : Request} (h : r.InRange) {e : Edit} (he : e.Permitted shape) :
    ofJson? (e.apply r.toJson) = some (r.reset e) := by
  have hsorted : Keyed.Sorted (Keyed.ofEntries r.fields) := Keyed.sorted_ofEntries r.fields
  rw [show r.toJson = .obj (Keyed.ofEntries r.fields) from rfl, Edit.apply_obj]
  refine Option.bind_eq_some_iff.2 ⟨_, Json.Record.optional_leaf hsorted .int r.replicas
    (he.at (by simp)) (by simp [fields]) (by simp)
    fun n hn => Json.ranged?_int (h.replicas n hn), ?_⟩
  refine Option.bind_eq_some_iff.2 ⟨_, Json.Record.optional_leaf hsorted .int r.maxSurge
    (he.at (by simp)) (by simp [fields]) (by simp)
    fun n hn => Json.ranged?_int (h.maxSurge n hn), ?_⟩
  refine Option.bind_eq_some_iff.2 ⟨_, Json.Record.optional_leaf hsorted .int r.timeoutSeconds
    (he.at (by simp)) (by simp [fields]) (by simp)
    fun n hn => Json.ranged?_int (h.timeoutSeconds n hn), ?_⟩
  refine Option.bind_eq_some_iff.2 ⟨_, Json.Record.defaulted_leaf hsorted (.bool r.copyReplicas)
    (he.at (by simp)) (by simp [fields]) rfl, ?_⟩
  rfl

theorem holds_toJson (r : Request) : shape.Holds r.toJson :=
  Shape.holds_ofFields rfl (by simp) (by simp)

theorem reset_bare (e : Edit) (r : Request) : r.reset e.bare = r.reset e := by
  simp [reset]

theorem within_toJson {r : Request} (h : r.InRange) (depth : Nat) (good : Double → Prop) :
    r.toJson.Within (depth + 1) good := by
  refine Json.within_ofFields ?_
  simp [Json.within_ofOption_int h.replicas, Json.within_ofOption_int h.maxSurge,
    Json.within_ofOption_int h.timeoutSeconds]

theorem inRange_of_ofJson? {j : Json} {r : Request} (h : ofJson? j = some r) : r.InRange := by
  obtain ⟨s, -, h⟩ := Option.bind_eq_some_iff.1 h
  obtain ⟨replicas, hreplicas, h⟩ := Option.bind_eq_some_iff.1 h
  obtain ⟨maxSurge, hmaxSurge, h⟩ := Option.bind_eq_some_iff.1 h
  obtain ⟨timeoutSeconds, htimeoutSeconds, h⟩ := Option.bind_eq_some_iff.1 h
  obtain ⟨copyReplicas, -, h⟩ := Option.bind_eq_some_iff.1 h
  obtain rfl := Option.some.inj h
  exact
    { replicas := Json.Record.forall_of_optional hreplicas fun _ _ _ => Json.contains_of_ranged?
      maxSurge := Json.Record.forall_of_optional hmaxSurge fun _ _ _ => Json.contains_of_ranged?
      timeoutSeconds :=
        Json.Record.forall_of_optional htimeoutSeconds fun _ _ _ => Json.contains_of_ranged? }

/-- Requests as JSON. -/
def format : Format Request where
  write := toJson
  read? := ofJson?
  InRange := InRange
  shape := shape
  reset := reset

theorem lasts_toJson {r : Request} (h : r.InRange) : r.toJson.Lasts :=
  (within_toJson h 126 Double.Lasts).lasts

theorem lawful_format : format.Lawful where
  wellFormed_write h := (within_toJson h 0 fun _ => True).wellFormed
  holds_write := holds_toJson
  inRange_of_read? _ h := inRange_of_ofJson? h
  shallow_write _ h := (within_toJson (inRange_of_ofJson? h) 126 fun _ => True).nesting_le
  lasts_write h _ _ := lasts_toJson h
  read?_edited h he := ofJson?_edited h he
  reset_keep _ := rfl
  reset_bare := reset_bare

end Request

end Handover
