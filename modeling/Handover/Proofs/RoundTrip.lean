import Mathlib
import Handover.Proofs.Format.Request
import Handover.Proofs.Format.Settings
import Handover.Proofs.Format.Workload

/-!
# What is written is read back

The formats of workload objects, requests and settings round-trip (`formats_round_trip`). Requests
and settings are given back in text always, objects as far as the numbers of double precision in
their templates last and the templates are shallow enough. Neither of these limits can be dropped
(`templates_need_not_last`).
-/

namespace Handover

/-- What is written for an object, a request or settings is read back as it was, with the defaults
for what an edit leaves out. As text this holds of an object exactly if what is written for it
lasts. -/
theorem formats_round_trip :
    Workload.format.RoundTrips ∧ Request.format.RoundTripsAlways ∧
      Settings.format.RoundTripsAlways :=
  ⟨Workload.lawful_format.roundTrips,
    Request.lawful_format.roundTripsAlways fun h => Request.lasts_toJson h,
    Settings.lawful_format.roundTripsAlways fun h => Settings.lasts_toJson h⟩

/-- An object with settings at every level, and a number of double precision in its template. -/
def database : Workload where
  kind := .statefulSet
  metadata := { ns := "main", name := "db", generation := 3, resourceVersion := 17 }
  spec :=
    { replicas := some 5
      template := .obj [("weight", .real ⟨false, 4503599627370496, -53⟩)]
      updateStrategy := ⟨"OnDelete", some ⟨none, some "25%", some 2⟩, true⟩
      minReadySeconds := 30
      volumeClaimTemplates := [.arr [.int 1, .null]] }
  status := ⟨3, 5, 5⟩

/-- An edit that leaves out fields at every level and adds fields at two. -/
def trim : Edit :=
  .change ["status"] [("owner", .str "ops")] fun
    | "metadata" =>
      .change ["labels", "annotations", "finalizers", "generation", "resourceVersion"] [] fun _ =>
        .keep
    | "spec" =>
      .change ["replicas", "selector", "minReadySeconds", "revisionHistoryLimit", "serviceName",
        "volumeClaimTemplates", "podManagementPolicy"] [("owner", .arr [.null])] fun
        | "updateStrategy" => .change ["paused"] [] fun
          | "rollingUpdate" => .change ["maxUnavailable", "partition"] [] fun _ => .keep
          | _ => .keep
        | _ => .keep
    | _ => .keep

/-- Settings that differ from the default ones everywhere. -/
def busy : Settings where
  workers := 2
  backoff := ⟨1, 2⟩
  maxWriteRetries := 7
  retention := ⟨60, 10⟩
  pollIntervalMs := 3

/-- An edit that leaves out all settings but the workers and how many migrations are kept. -/
def thin : Edit :=
  .change ["rate_limiter", "max_write_retries", "poll_interval_ms"] [] fun
    | "retention" => .change ["finished_ttl_secs"] [] fun _ => .keep
    | _ => .keep

/-- A text of the edited settings. Its members under other names could not be read: a number too
large, half a pair of 16-bit units, and a name that stands twice. -/
def thinText : String :=
  "\x7b\"x\": 1e999, \"retention\": \x7b\"y\": \"\\ud800\", \"max_finished\": 10\x7d, " ++
    "\"workers\": 2, \"x\": []\x7d"

/-- The pieces of a name. -/
def plainPieces (name : String) : List Json.Piece :=
  name.toList.map .char

/-- The two members of the retention in `thinText`. -/
def thinRetention : Json.Raw :=
  .obj
    [(plainPieces "y", .quoted [.unit 0xD800]),
     (plainPieces "max_finished", .number (.ofInt 10))]

/-- What `thinText` writes. -/
def thinRaw : Json.Raw :=
  .obj
    [(plainPieces "x", .number ⟨false, ['1'], none, some 999⟩),
     (plainPieces "retention", thinRetention),
     (plainPieces "workers", .number (.ofInt 2)),
     (plainPieces "x", .arr [])]

theorem ofText?_thinText : Json.Raw.ofText? thinText = some thinRaw := by
  cbv

theorem text?_plainPieces (name : String) : Json.text? (plainPieces name) = some name := by
  have hcharacters : ∀ cs : List Char, Json.characters? (cs.map .char) = some cs := by
    intro cs
    induction cs with
    | nil => rfl
    | cons c cs ih => rw [List.map_cons, Json.characters?, ih, Option.map_some]
  rw [Json.text?, plainPieces, hcharacters, Option.map_some, String.ofList_toList]

theorem shows_ofInt {n : Int} (h : Json.Fits n) (depth : Nat) :
    Edit.keep.Shows .leaf depth (.number (.ofInt n)) (.int n) := by
  refine .keep ?_
  rw [Json.shaped?_leaf, Json.Raw.json?, Json.json?_ofInt h]

/-- The retention of `busy`, as it is written. -/
def busyRetention : List (String × Json) :=
  [("finished_ttl_secs", .int 60), ("max_finished", .int 10)]

/-- The fields of `busy`, as they are written. -/
def busyFields : List (String × Json) :=
  [("max_write_retries", .int 7),
   ("poll_interval_ms", .int 3),
   ("rate_limiter", .obj [("base_delay_ms", .int 1), ("max_delay_ms", .int 2)]),
   ("retention", .obj busyRetention),
   ("workers", .int 2)]

theorem thinRetention_shows (depth : Nat) :
    (thin.within "retention").Shows Retention.shape (depth + 1) thinRetention
      (.obj busyRetention) := by
  have hkept : busyRetention.filter (fun f => !(thin.within "retention").omits f.1) =
      [("max_finished", .int 10)] := by
    decide +kernel
  refine .record [("y", .quoted [.unit 0xD800]), ("max_finished", .number (.ofInt 10))]
    (fun _ => .number (.ofInt 10)) ?_ ?_ fun f hf homits shape hshape => ?_
  · simp [text?_plainPieces]
  · rw [hkept]
    exact .refl _
  · have hmem : f ∈ [("max_finished", Json.int 10)] :=
      hkept ▸ List.mem_filter.2 ⟨hf, by rw [homits]; rfl⟩
    obtain rfl := List.mem_singleton.1 hmem
    obtain rfl : Shape.leaf = shape := Option.some.inj hshape
    exact shows_ofInt (.inl rfl) depth

theorem thinRaw_shows :
    thin.Shows Settings.shape Json.depthLimit thinRaw (Settings.format.write busy) := by
  have hwrite : Settings.format.write busy = .obj busyFields := by decide +kernel
  have hkept : busyFields.filter (fun f => !thin.omits f.1) =
      [("retention", .obj busyRetention), ("workers", .int 2)] := by
    decide +kernel
  rw [hwrite]
  refine .record
    [("x", .number ⟨false, ['1'], none, some 999⟩), ("retention", thinRetention),
      ("workers", .number (.ofInt 2)), ("x", .arr [])]
    (fun name => if name = "retention" then thinRetention else .number (.ofInt 2)) ?_ ?_
    fun f hf homits shape hshape => ?_
  · simp [text?_plainPieces]
  · rw [hkept]
    exact .refl _
  · have hmem : f ∈ [("retention", Json.obj busyRetention), ("workers", .int 2)] :=
      hkept ▸ List.mem_filter.2 ⟨hf, by rw [homits]; rfl⟩
    obtain rfl | hf := List.mem_cons.1 hmem
    · obtain rfl : Retention.shape = shape := Option.some.inj hshape
      exact thinRetention_shows _
    · obtain rfl := List.mem_singleton.1 hf
      obtain rfl : Shape.leaf = shape := Option.some.inj hshape
      exact shows_ofInt (.inl rfl) _

/-- The round trips of an edited object, of an object, of edited settings, and of the default
request and settings. -/
theorem formats_round_trip_database :
    Workload.format.InRange database ∧ trim.Permitted Workload.format.shape ∧
      (trim.bare.apply (Workload.format.write database)).Lasts ∧
      (Workload.format.write database).Lasts ∧
      Workload.format.decode? (trim.apply (Workload.format.write database)).compact =
        some (Workload.format.reset trim database) ∧
      Workload.format.decode? (Workload.format.encode database) = some database ∧
      Settings.format.decode? thinText = some ⟨2, .default, 5, ⟨3600, 10⟩, 1000⟩ ∧
      Request.format.decode? (Request.format.encode .default) = some .default ∧
      Settings.format.decode? (Settings.format.encode .default) = some .default := by
  have hrange : Workload.format.InRange database :=
    { metadata := ⟨rfl, rfl⟩
      spec :=
        { replicas := by intro n hn; cases hn; rfl
          template := ⟨by simp [Keyed.Sorted], trivial, trivial⟩
          updateStrategy := ⟨by intro b hb; cases hb; exact ⟨by intro n hn; cases hn; rfl⟩⟩
          minReadySeconds := rfl
          revisionHistoryLimit := by intro n hn; cases hn
          volumeClaimTemplates := ⟨⟨.inl rfl, trivial, trivial⟩, trivial⟩ }
      status := ⟨rfl, rfl, rfl⟩ }
  have htrim : trim.Permitted Workload.format.shape := by
    simp [Edit.Permitted, trim, Workload.format, Workload.shape, Metadata.shape, Spec.shape,
      UpdateStrategy.shape, RollingUpdate.shape]
  have hkept : (trim.bare.apply (Workload.format.write database)).Lasts :=
    ⟨by decide +kernel, by decide +kernel⟩
  have hlasts : (Workload.format.write database).Lasts :=
    ⟨by decide +kernel, by decide +kernel⟩
  have hthin : thin.Permitted Settings.format.shape := by
    simp [Edit.Permitted, thin, Settings.format, Settings.shape, Backoff.shape, Retention.shape]
  have hdefault : Request.format.InRange .default :=
    { replicas := by intro n hn; cases hn
      maxSurge := by intro n hn; cases hn
      timeoutSeconds := by intro n hn; cases hn }
  exact ⟨hrange, htrim, hkept, hlasts, formats_round_trip.1.decode?_edited hrange htrim hkept,
    (formats_round_trip.1.decode?_encode hrange).2 hlasts,
    formats_round_trip.2.2.decode?_shown (a := busy) ⟨rfl, ⟨rfl, rfl⟩, rfl, ⟨rfl, rfl⟩, rfl⟩ hthin
      ofText?_thinText thinRaw_shows,
    formats_round_trip.2.1.decode?_encode_self hdefault,
    formats_round_trip.2.2.decode?_encode_self ⟨rfl, ⟨rfl, rfl⟩, rfl, ⟨rfl, rfl⟩, rfl⟩⟩

/-- A field that stands twice is refused, and what stands under another name is not looked at. -/
example :
    Request.format.decode? "\x7b\"replicas\": 1, \"replicas\": 2\x7d" = none ∧
      Settings.format.decode? "\x7b\"workers\": 2, \"x\": 1e999\x7d" =
        some { Settings.default with workers := 2 } := by
  decide +kernel

/-- An object of which nothing but the template is set. -/
def carrying (template : Json) : Workload :=
  { Workload.named .deployment "default" "web" with spec := { template } }

theorem inRange_carrying {template : Json} (h : template.WellFormed) :
    (carrying template).InRange where
  metadata := ⟨rfl, rfl⟩
  spec := ⟨nofun, h, ⟨nofun⟩, rfl, nofun, trivial⟩
  status := ⟨rfl, rfl, rfl⟩

/-- The number 0.9798279716814519, whose text is read as 0.979827971681452. -/
def unsteady : Double :=
  ⟨false, 8825505776303551, -53⟩

theorem not_lasts_unsteady : ¬ unsteady.Lasts := by
  unfold Double.Lasts
  decide +kernel

/-- So many arrays within an array. -/
def nested : Nat → Json
  | 0 => .arr []
  | n + 1 => .arr [nested n]

theorem wellFormed_nested (n : Nat) : (nested n).WellFormed := by
  induction n with
  | zero => trivial
  | succ n ih => exact ⟨ih, trivial⟩

/-- A text whose template is read as the number `unsteady`. -/
def unsteadyText : String :=
  "\x7b\"kind\":\"Deployment\",\"metadata\":\x7b\"namespace\":\"default\",\"name\":\"web\"\x7d," ++
    "\"spec\":\x7b\"template\":0.97982797168145192\x7d\x7d"

theorem decode?_unsteadyText :
    Workload.format.decode? unsteadyText = some (carrying (.real unsteady)) := by
  decide +kernel

/-- Neither limit of the text of objects can be dropped: a number of double precision in a template
need not be read as the one that was written, be it given or read from a text, and a template that
stands too deep is refused. -/
theorem templates_need_not_last :
    (Workload.format.InRange (carrying (.real unsteady)) ∧
      Workload.format.decode? (Workload.format.encode (carrying (.real unsteady))) ≠
        some (carrying (.real unsteady))) ∧
    (Workload.format.decode? unsteadyText = some (carrying (.real unsteady))) ∧
    (Workload.format.InRange (carrying (nested 125)) ∧
      Workload.format.decode? (Workload.format.encode (carrying (nested 125))) ≠
        some (carrying (nested 125))) := by
  have hreal : (carrying (.real unsteady)).InRange := inRange_carrying trivial
  have hdeep : (carrying (nested 125)).InRange := inRange_carrying (wellFormed_nested 125)
  refine ⟨⟨hreal, fun h => ?_⟩, decode?_unsteadyText, hdeep, fun h => ?_⟩
  · have hlasts := (Workload.lawful_format.decode?_encode_iff hreal).1 h
    have hmem : unsteady ∈ (carrying (.real unsteady)).toJson.doubles := by decide +kernel
    exact not_lasts_unsteady (hlasts.steady unsteady hmem)
  · have hlasts := (Workload.lawful_format.decode?_encode_iff hdeep).1 h
    have hnesting : ¬ (carrying (nested 125)).toJson.nesting ≤ Json.depthLimit := by
      decide +kernel
    exact hnesting hlasts.shallow

end Handover
