import JobBoard.Proofs.Backend.Outcomes
import JobBoard.Proofs.Json.Record

/-!
# What a listing gives

A listing is read if it is an array of records whose first two fields are texts, and then it gives
one job for each. A project that cannot be read is left out with a warning, and nothing else comes
of it. Main statements: `listing_of_objects` and `listing_reads_records`.
-/
namespace JobBoard.Backend

open Json (Value isText member? textOf)

def readable (entry : Value) : Bool :=
  entry.hasTexts 2 "name" "status"

def projectOf (entry : Value) : ProjectRecord :=
  ⟨textOf (entry.field? "name" 0), textOf (entry.field? "status" 1)⟩

def entries (v : Value) : List Value :=
  match v.field? "projects" 2 with
  | some (.array items) => items
  | _ => []

/-- A value that a job can be read from. -/
def isJob (v : Value) : Bool :=
  v.hasTexts 3 "name" "namespace"

def jobOf (v : Value) : JobRecord :=
  ⟨⟨textOf (v.field? "name" 0), textOf (v.field? "namespace" 1)⟩,
    ((entries v).filter readable).map projectOf⟩

/-- The entries that no project can be read from, with the name of the job. -/
def skipped (v : Value) : List (String × Value) :=
  ((entries v).filter fun entry => !readable entry).map (textOf (v.field? "name" 0), ·)

def Warns (skip : String × Value) (logged : Log.Entry) : Prop :=
  logged.level = .warn ∧ ∃ m, readProject skip.2 = .error m ∧
    logged.text = "Skipping unreadable project entry in " ++ skip.1 ++ ": " ++ m.message

/-- Two jobs that may differ in members of names that are not read, in the jobs themselves and in
their entries. -/
structure SameJob (v w : Value) : Prop where
  texts : Json.SameTexts "name" "namespace" v w
  entries : List.Forall₂ (Json.SameTexts "name" "status") (entries v) (entries w)

/-! ## Projects -/

theorem readProject_eq (entry : Value) :
    readProject entry = (fun texts => ⟨texts.1, texts.2⟩) <$>
      Json.readTexts "WireProject" 2 "name" "status" entry := by
  simp [readProject, Json.readTexts]

theorem readProject_of_readable {entry : Value} (h : readable entry = true) :
    readProject entry = .ok (projectOf entry) := by
  rw [readProject_eq, Json.readTexts_of_hasTexts "WireProject" h]
  rfl

theorem readProject_of_not_readable {entry : Value} (h : readable entry = false) :
    ∃ m, readProject entry = .error m := by
  obtain ⟨m, hm⟩ := Json.readTexts_of_not_hasTexts "WireProject" h
  exact ⟨m, by rw [readProject_eq, hm]; rfl⟩

theorem readProjects_spec (job : String) (vs : List Value) :
    (readProjects job vs).1 = (vs.filter readable).map projectOf ∧
      List.Forall₂ Warns ((vs.filter fun entry => !readable entry).map (job, ·))
        (readProjects job vs).2 := by
  induction vs with
  | nil => exact ⟨rfl, .nil⟩
  | cons entry vs ih =>
    obtain ⟨hprojects, hlog⟩ := ih
    rw [readProjects]
    cases h : readable entry with
    | true =>
      rw [readProject_of_readable h]
      simpa [h, hprojects] using hlog
    | false =>
      obtain ⟨m, hm⟩ := readProject_of_not_readable h
      rw [hm, List.filter_cons_of_neg (by simp [h]), List.filter_cons_of_pos (by simp [h])]
      exact ⟨hprojects, .cons ⟨rfl, m, hm, rfl⟩ hlog⟩

theorem readProject_congr {v w : Value} (h : Json.SameTexts "name" "status" v w) :
    (readProject v).mapError Json.Mismatch.message =
      (readProject w).mapError Json.Mismatch.message := by
  have htexts := Json.readTexts_congr "WireProject" 2 h
  rw [readProject_eq, readProject_eq, Json.mapError_map, Json.mapError_map, htexts]

theorem readProjects_congr (job : String) {vs ws : List Value}
    (h : List.Forall₂ (Json.SameTexts "name" "status") vs ws) :
    readProjects job vs = readProjects job ws := by
  induction h with
  | nil => rfl
  | @cons v w vs ws hentry hentries ih =>
    rw [readProjects, readProjects, ih]
    rcases Json.cases_of_mapError_eq (readProject_congr hentry) with
      ⟨project, hv, hw⟩ | ⟨m, n, hv, hw, hmessage⟩
    · rw [hv, hw]
    · simp only [hv, hw, skippedEntry, hmessage]

/-! ## Jobs -/

theorem entries_eq (v : Value) :
    entries v = match v.field "projects" 2 with
      | .array items => items
      | _ => [] := by
  rw [v.field_eq, entries]
  cases v.field? "projects" 2 with
  | none => rfl
  | some projects => cases projects <;> rfl

theorem readJob_eq (v : Value) :
    readJob v = (fun texts => (⟨⟨texts.1, texts.2⟩, (readProjects texts.1 (entries v)).1⟩,
        (readProjects texts.1 (entries v)).2)) <$>
      Json.readTexts "WireJob" 3 "name" "namespace" v := by
  rw [entries_eq]
  cases h : v.field "projects" 2 <;> simp [readJob, Json.readTexts, readProjects, h]

theorem readJob_of_isJob {v : Value} (h : isJob v = true) :
    ∃ log, readJob v = .ok (jobOf v, log) ∧ List.Forall₂ Warns (skipped v) log := by
  obtain ⟨hprojects, hlog⟩ := readProjects_spec (textOf (v.field? "name" 0)) (entries v)
  refine ⟨_, ?_, hlog⟩
  rw [readJob_eq, Json.readTexts_of_hasTexts "WireJob" h, jobOf, ← hprojects]
  rfl

theorem readJob_of_not_isJob {v : Value} (h : isJob v = false) : ∃ m, readJob v = .error m := by
  obtain ⟨m, hm⟩ := Json.readTexts_of_not_hasTexts "WireJob" h
  exact ⟨m, by rw [readJob_eq, hm]; rfl⟩

theorem readJob_congr {v w : Value} (h : SameJob v w) :
    (readJob v).mapError Json.Mismatch.message = (readJob w).mapError Json.Mismatch.message := by
  have htexts := Json.readTexts_congr "WireJob" 3 h.texts
  have hprojects (job : String) := readProjects_congr job h.entries
  rw [readJob_eq, readJob_eq, Json.mapError_map, Json.mapError_map, htexts]
  simp only [hprojects]

theorem readJobs_of_isJob {items : List Value} (h : ∀ v ∈ items, isJob v = true) :
    (readJobs items).1 = .ok (items.map jobOf) ∧
      List.Forall₂ Warns (items.flatMap skipped) (readJobs items).2 := by
  induction items with
  | nil => exact ⟨rfl, .nil⟩
  | cons v items ih =>
    obtain ⟨hv, hitems⟩ := List.forall_mem_cons.mp h
    obtain ⟨log, hread, hlog⟩ := readJob_of_isJob hv
    obtain ⟨hjobs, hmore⟩ := ih hitems
    simp only [readJobs, hread, hjobs]
    exact ⟨rfl, List.rel_append hlog hmore⟩

theorem readJobs_of_not_isJob {items : List Value} {v : Value} (hv : v ∈ items)
    (h : isJob v = false) : ∃ m, (readJobs items).1 = .error m := by
  induction items with
  | nil => cases hv
  | cons w items ih =>
    cases hw : isJob w with
    | true =>
      obtain ⟨log, hread, -⟩ := readJob_of_isJob hw
      rcases List.mem_cons.mp hv with rfl | hv
      · rw [h] at hw
        cases hw
      · obtain ⟨m, hm⟩ := ih hv
        simp only [readJobs, hread, hm]
        exact ⟨m, rfl⟩
    | false =>
      obtain ⟨m, hm⟩ := readJob_of_not_isJob hw
      simp only [readJobs, hm]
      exact ⟨m, rfl⟩

theorem readJobs_congr {vs ws : List Value} (h : List.Forall₂ SameJob vs ws) :
    (readJobs vs).1.mapError Json.Mismatch.message =
        (readJobs ws).1.mapError Json.Mismatch.message ∧
      (readJobs vs).2 = (readJobs ws).2 := by
  induction h with
  | nil => exact ⟨rfl, rfl⟩
  | @cons v w vs ws hjob hjobs ih =>
    obtain ⟨ihjobs, ihlog⟩ := ih
    rcases Json.cases_of_mapError_eq (readJob_congr hjob) with
      ⟨read, hv, hw⟩ | ⟨m, n, hv, hw, hmessage⟩
    · simp only [readJobs, hv, hw, ihlog, and_true]
      rcases Json.cases_of_mapError_eq ihjobs with ⟨jobs, hvs, hws⟩ | ⟨m, n, hvs, hws, hmessage⟩
      · rw [hvs, hws]
      · simp only [hvs, hws]
        exact congrArg Except.error hmessage
    · simp only [readJobs, hv, hw, and_true]
      exact congrArg Except.error hmessage

/-! ## Listings -/

theorem readListing_of_array {body : Bytes} {items : List Value}
    (h : Json.parse body = .ok (.array items)) :
    readListing body =
      (((readJobs items).1.mapError Json.Mismatch.message).mapError malformed,
        (readJobs items).2) := by
  rw [readListing, h]
  cases hjobs : (readJobs items).1 <;> simp [hjobs, Except.mapError]

theorem readListing_eq_ok {body : Bytes} {jobs : List JobRecord} :
    (readListing body).1 = .ok jobs ↔
      ∃ items, Json.parse body = .ok (.array items) ∧ (∀ v ∈ items, isJob v = true) ∧
        items.map jobOf = jobs := by
  constructor
  · intro h
    unfold readListing at h
    split at h
    · cases h
    · next items hparse =>
      refine ⟨items, hparse, ?_⟩
      by_cases hall : ∀ v ∈ items, isJob v = true
      · have hjobs := (readJobs_of_isJob hall).1
        simp only [hjobs] at h
        exact ⟨hall, Except.ok.inj h⟩
      · -- One job that cannot be read fails them all.
        simp only [not_forall, Bool.not_eq_true] at hall
        obtain ⟨v, hv, hnot⟩ := hall
        obtain ⟨m, hm⟩ := readJobs_of_not_isJob hv hnot
        simp only [hm] at h
        cases h
    · cases h
  · rintro ⟨items, hparse, hall, rfl⟩
    rw [readListing_of_array hparse, (readJobs_of_isJob hall).1]
    rfl

theorem failsAs_readListing {body : Bytes} :
    FailsAs (readListing body).1 .malformedResponse ↔ ∀ jobs, (readListing body).1 ≠ .ok jobs := by
  cases h : (readListing body).1 with
  | error f => simp [kind_of_readListing h]
  | ok jobs => simp

theorem readListing_congr {body other : Bytes} {items others : List Value}
    (hbody : Json.parse body = .ok (.array items)) (hother : Json.parse other = .ok (.array others))
    (h : List.Forall₂ SameJob items others) : readListing other = readListing body := by
  obtain ⟨hjobs, hlog⟩ := readJobs_congr h
  rw [readListing_of_array hbody, readListing_of_array hother, hjobs, hlog]

theorem isJob_object {members : List (String × Value)} :
    isJob (.object members) = true ↔
      isText (member? "name" members) = true ∧ isText (member? "namespace" members) = true := by
  simp [isJob, Value.hasTexts, Value.isRecord, Value.field?]

theorem isJob_of_no_record {v : Value} (hobject : ∀ members, v ≠ .object members)
    (harray : ∀ fields, v = .array fields → 3 < fields.length) : isJob v = false := by
  cases v with
  | object members => exact absurd rfl (hobject members)
  | array fields =>
    have hlong : ¬fields.length ≤ 3 := Nat.not_le.mpr (harray fields rfl)
    simp [isJob, Value.hasTexts, Value.isRecord, hlong]
  | _ => rfl

/-- A listing of objects is read if the name and the namespace of each are missing, null or texts.
It gives one job for each object in order, with the projects of the entries that can be read, and
one warning for each entry that cannot. Members of any other names, in the objects, in their entries
or inside of other values, change neither the result nor the log. -/
theorem listing_of_objects {body : Bytes} {objects : List (List (String × Value))}
    (hbody : Json.parse body = .ok (.array (objects.map .object))) :
    ((∃ jobs, (readListing body).1 = .ok jobs) ↔ ∀ members ∈ objects,
        isText (member? "name" members) = true ∧ isText (member? "namespace" members) = true) ∧
      (∀ jobs, (readListing body).1 = .ok jobs →
        jobs = (objects.map .object).map jobOf ∧
          List.Forall₂ Warns ((objects.map .object).flatMap skipped) (readListing body).2) ∧
      ∀ (other : Bytes) (others : List (List (String × Value))),
        Json.parse other = .ok (.array (others.map .object)) →
        List.Forall₂ SameJob (objects.map .object) (others.map .object) →
          readListing other = readListing body := by
  have hitems {items : List Value} (h : Json.parse body = .ok (.array items)) :
      objects.map .object = items := by
    rw [hbody] at h
    cases h
    rfl
  refine ⟨?_, ?_, ?_⟩
  · simp only [readListing_eq_ok]
    constructor
    · rintro ⟨_, _, hparse, hall, -⟩ members hmembers
      rw [← hitems hparse] at hall
      exact isJob_object.mp (hall _ (List.mem_map_of_mem hmembers))
    · intro hall
      refine ⟨_, _, hbody, ?_, rfl⟩
      intro v hv
      obtain ⟨members, hmembers, rfl⟩ := List.mem_map.mp hv
      exact isJob_object.mpr (hall members hmembers)
  · intro jobs hjobs
    obtain ⟨items, hparse, hall, rfl⟩ := readListing_eq_ok.mp hjobs
    rw [hitems hparse, readListing_of_array hparse]
    exact ⟨rfl, (readJobs_of_isJob hall).2⟩
  · intro other others hother hsame
    exact readListing_congr hbody hother hsame

/-- Two jobs. The first has an entry that cannot be read; the second has nothing but a member that
nobody asks for. -/
def mixedListing : Bytes :=
  Text.Utf8.bytes
    "[\x7b\"name\":\"api\",\"projects\":[[\"web\"],false]\x7d,\x7b\"id\":null\x7d]"

def mixedObjects : List (List (String × Value)) :=
  [[("name", .string "api"), ("projects", .array [.array [.string "web"], .bool false])],
    [("id", .null)]]

theorem mixed_listing_of_objects :
    Json.parse mixedListing = .ok (.array (mixedObjects.map .object)) ∧
      (readListing mixedListing).1 = .ok [⟨⟨"api", ""⟩, [⟨"web", ""⟩]⟩, ⟨⟨"", ""⟩, []⟩] ∧
      (readListing mixedListing).2.length = 1 := by
  have hparse : Json.parse mixedListing = .ok (.array (mixedObjects.map .object)) := by
    decide +kernel
  obtain ⟨hread, hgives, -⟩ := listing_of_objects hparse
  obtain ⟨jobs, hjobs⟩ := hread.mpr (by decide)
  obtain ⟨rfl, hlog⟩ := hgives jobs hjobs
  exact ⟨hparse, hjobs, hlog.length_eq.symm⟩

/-- A listing is read exactly if it is an array of records whose names and namespaces are missing,
null or texts, and it is malformed otherwise. In particular an element that is neither an object nor
an array of at most three fields makes it malformed. -/
theorem listing_reads_records (body : Bytes) :
    (∀ jobs, (readListing body).1 = .ok jobs ↔
        ∃ items, Json.parse body = .ok (.array items) ∧ (∀ v ∈ items, isJob v = true) ∧
          items.map jobOf = jobs) ∧
      (FailsAs (readListing body).1 .malformedResponse ↔
        ∀ items, Json.parse body = .ok (.array items) → ∃ v ∈ items, isJob v = false) ∧
      ∀ items, Json.parse body = .ok (.array items) → ∀ v ∈ items,
        (∀ members, v ≠ .object members) → (∀ fields, v = .array fields → 3 < fields.length) →
          FailsAs (readListing body).1 .malformedResponse := by
  have hmalformed : FailsAs (readListing body).1 .malformedResponse ↔
      ∀ items, Json.parse body = .ok (.array items) → ∃ v ∈ items, isJob v = false := by
    rw [failsAs_readListing]
    constructor
    · intro hnot items hparse
      by_contra hall
      simp only [not_exists, not_and, Bool.not_eq_false] at hall
      exact hnot _ (readListing_eq_ok.mpr ⟨items, hparse, hall, rfl⟩)
    · intro hsome jobs hjobs
      obtain ⟨items, hparse, hall, -⟩ := readListing_eq_ok.mp hjobs
      obtain ⟨v, hv, hnot⟩ := hsome items hparse
      rw [hall v hv] at hnot
      cases hnot
  refine ⟨fun jobs => readListing_eq_ok, hmalformed, ?_⟩
  intro items hparse v hv hobject harray
  refine hmalformed.mpr fun _ hparse' => ?_
  rw [hparse] at hparse'
  cases hparse'
  exact ⟨v, hv, isJob_of_no_record hobject harray⟩

def arrayListing : Bytes :=
  Text.Utf8.bytes "[[\"api\",\"ops\"]]"

/-- An array of texts passes for a job, so the elements of a listing need not be objects. -/
theorem array_read_as_job :
    (readListing arrayListing).1 = .ok [⟨⟨"api", "ops"⟩, []⟩] ∧
      Json.parse arrayListing = .ok (.array [.array [.string "api", .string "ops"]]) ∧
      ¬∃ items, Json.parse arrayListing = .ok (.array items) ∧
        ∀ v ∈ items, ∃ members, v = .object members := by
  have hparse : Json.parse arrayListing = .ok (.array [.array [.string "api", .string "ops"]]) := by
    decide +kernel
  refine ⟨readListing_eq_ok.mpr ⟨_, hparse, by decide, by decide⟩, hparse, ?_⟩
  rintro ⟨items, hparse', hobjects⟩
  rw [hparse] at hparse'
  cases hparse'
  obtain ⟨members, h⟩ := hobjects _ (List.mem_singleton_self _)
  cases h

end JobBoard.Backend
