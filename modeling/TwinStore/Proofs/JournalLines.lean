import Mathlib.Data.List.Basic
import TwinStore.Journal.Entry
import TwinStore.Proofs.PrintedDocuments

/-!
# Lines of the journal

Every entry of the journal is written as one object on one line, whatever characters are in it, and a
reader of the line finds what the entry says.  So a file of entries is read line by line.

Main definitions:

- `Entry.record`: the members of the object of an entry.
- `Entry.IsToldBy`: the lines from which an entry is read.
- `fileText`, `linesOf`: the text of a file with some lines, and the lines of a text.

Main results:

- Theorem `Entry.jsonLine_eq_ok`: what the line of an entry is.
- Theorem `Entry.isToldBy_of_jsonLine`: the line of an entry tells it.
- Theorem `linesOf_fileText`: lines without line breaks are found in their file.
- Theorem `journal_lines_tell_entries`: the lines of entries are printed ones, and tell them.
-/

namespace TwinStore

/-! ## Entries that may be missing -/

namespace Entries

variable {α : Type} {fields : Entries (Option α)}

/-- The entries that are there. -/
def present (fields : Entries (Option α)) : Entries α :=
  fields.filterMap fun f => f.2.map (f.1, ·)

/-- The keys of what is there are some of the keys. -/
theorem keys_present_sublist (fields : Entries (Option α)) :
    (keys (present fields)).Sublist (keys fields) := by
  induction fields with
  | nil => exact List.Sublist.refl _
  | cons f fields ih =>
    obtain ⟨k, a⟩ := f
    cases a with
    | none => exact ih.cons k
    | some a => exact ih.cons_cons k

/-- What may be missing is found if it is there. -/
theorem get?_present (hkeys : (keys fields).Nodup) {key : String} {a : Option α}
    (h : (key, a) ∈ fields) : get? (present fields) key = a := by
  induction fields with
  | nil => cases h
  | cons f fields ih =>
    obtain ⟨k, b⟩ := f
    rw [keys_cons, List.nodup_cons] at hkeys
    rcases List.mem_cons.mp h with heq | hmem
    · cases heq
      cases a with
      | none =>
        exact get?_eq_none_iff.mpr fun hk => hkeys.1 ((keys_present_sublist fields).subset hk)
      | some a => exact (get?_cons key a _ key).trans (if_pos rfl)
    · have hne : k ≠ key := fun hk => hkeys.1 (hk ▸ List.mem_map.mpr ⟨_, hmem, rfl⟩)
      cases b with
      | none => exact ih hkeys.2 hmem
      | some b => exact (get?_cons k b _ key).trans ((if_neg hne).trans (ih hkeys.2 hmem))

end Entries

namespace Entry

variable {e : Entry} {timestamp line : String} {context : Option Json}

/-! ## Members -/

/-- The failure that an entry reports, as a document. -/
def incidentDocument? (e : Entry) : Option Json :=
  e.incident.map fun i => .object [("type", .text i.kind), ("message", .text i.message)]

/-- What an object may have of an entry. -/
def fields (e : Entry) (timestamp : String) (context : Option Json) : Entries (Option Json) :=
  [("timestamp", some (.text timestamp)), ("level", some (.text e.level)),
    ("component", some (.text e.componentName)), ("message", some (.text e.message)),
    ("correlation_id", e.correlation?.map Json.text), ("context", context),
    ("exception", e.incidentDocument?)]

/-- No field has the name of another. -/
theorem nodup_keys_fields (e : Entry) (timestamp : String) (context : Option Json) :
    (Entries.keys (e.fields timestamp context)).Nodup := by
  show ["timestamp", "level", "component", "message", "correlation_id", "context", "exception"].Nodup
  decide

/-- Whether a document, or none, stands for the context of an entry: there is one if the context counts
as true. -/
def ShowsContext (e : Entry) (context : Option Json) : Prop :=
  if e.context.isTruthy then ∃ j, e.contextDocument = .ok j ∧ context = some j else context = none

/-- The members of an entry are those of its fields that are there. -/
theorem members_eq_ok {members : List (String × Json)} : e.members = .ok members ↔
    ∃ context, e.ShowsContext context ∧
      ("timestamp", .text timestamp) :: members = Entries.present (e.fields timestamp context) := by
  have hfields (context : Option Json) : Entries.present (e.fields timestamp context) =
      ("timestamp", .text timestamp) :: ([("level", .text e.level), ("component", .text e.componentName),
        ("message", .text e.message)] ++
        (e.correlation?.toList.map fun s => ("correlation_id", Json.text s)) ++
        (context.toList.map fun j => ("context", j)) ++
        e.incident.toList.map fun i =>
          ("exception", Json.object [("type", .text i.kind), ("message", .text i.message)])) := by
    rw [fields, incidentDocument?]
    cases e.correlation? <;> cases context <;> cases e.incident <;> rfl
  simp only [hfields, List.cons.injEq, true_and]
  rw [Entry.members]
  unfold ShowsContext
  split_ifs with htruthy
  · cases hdocument : e.contextDocument with
    | error fault =>
      refine ⟨nofun, ?_⟩
      rintro ⟨_, ⟨_, hnone, _⟩, _⟩
      cases hnone
    | ok j =>
      constructor
      · intro h
        exact ⟨some j, ⟨j, rfl, rfl⟩, (Except.ok.inj h).symm⟩
      · rintro ⟨_, ⟨_, hsome, rfl⟩, rfl⟩
        cases hsome
        rfl
  · constructor
    · intro h
      exact ⟨none, rfl, (Except.ok.inj h).symm⟩
    · rintro ⟨_, rfl, rfl⟩
      rfl

/-- The line of an entry is that of its members. -/
theorem jsonLine_eq_ok : e.jsonLine timestamp = .ok line ↔ ∃ context, e.ShowsContext context ∧
    line = (Json.object (Entries.present (e.fields timestamp context))).spaced := by
  rw [jsonLine, Outcome.bind_eq_ok]
  constructor
  · rintro ⟨members, hmembers, hline⟩
    obtain ⟨context, hcontext, heq⟩ := members_eq_ok.mp hmembers
    exact ⟨context, hcontext, heq ▸ (Except.ok.inj hline).symm⟩
  · rintro ⟨context, hcontext, rfl⟩
    have hfields : ("timestamp", .text timestamp) :: (Entries.present (e.fields timestamp context)).tail =
        Entries.present (e.fields timestamp context) := rfl
    exact ⟨_, members_eq_ok.mpr ⟨context, hcontext, hfields⟩, rfl⟩

/-! ## Reading -/

/-- What the members of an object say about an entry: its time, level, component and message, the
correlation if it has a name, the context if that counts as true, and the failure if there is one. -/
structure IsRecordedBy (e : Entry) (timestamp : String) (members : Entries Json) : Prop where
  timestamp : Entries.get? members "timestamp" = some (.text timestamp)
  level : Entries.get? members "level" = some (.text e.level)
  component : Entries.get? members "component" = some (.text (e.component.getD defaultComponent))
  message : Entries.get? members "message" = some (.text e.message)
  correlation : Entries.get? members "correlation_id" =
    (e.correlation.filter (!·.isEmpty)).map Json.text
  context : (Entries.get? members "context").map Json.toValue =
    if e.context.isTruthy then some e.context else none
  incident : Entries.get? members "exception" = e.incidentDocument?

/-- Whether an entry is read from a line. -/
def IsToldBy (e : Entry) (timestamp line : String) : Prop :=
  ∃ members : Entries Json, Json.read line = .ok (.object members) ∧ (Entries.keys members).Nodup ∧
    e.IsRecordedBy timestamp members

/-- The fields of an entry record it, if its context is the value of its document. -/
theorem isRecordedBy_fields
    (hcontext : context.map Json.toValue = if e.context.isTruthy then some e.context else none) :
    e.IsRecordedBy timestamp (Entries.present (e.fields timestamp context)) := by
  have hfound {key : String} {j : Option Json} (h : (key, j) ∈ e.fields timestamp context) :
      Entries.get? (Entries.present (e.fields timestamp context)) key = j :=
    Entries.get?_present (nodup_keys_fields e timestamp context) h
  refine ⟨hfound ?_, hfound ?_, hfound ?_, hfound ?_, hfound ?_, ?_, hfound ?_⟩
  case refine_6 => rw [hfound (j := context) (by simp [fields]), hcontext]
  all_goals simp [fields, componentName, correlation?]

/-- The document of a context of the kinds of documents is that context. -/
theorem ShowsContext.map_toValue (h : e.ShowsContext context) (he : e.context.IsJson) :
    context.map Json.toValue = if e.context.isTruthy then some e.context else none := by
  unfold ShowsContext at h
  split_ifs at h ⊢
  · obtain ⟨j, hj, rfl⟩ := h
    exact congrArg some (Json.mirrors_of_ofValue he hj).1.toValue
  · rw [h, Option.map_none]

/-- Every field of an entry is read back as it was written, if its context is of the kinds of
documents. -/
theorem ShowsContext.fields_settled (h : e.ShowsContext context) (he : e.context.IsJson) :
    ∀ f ∈ e.fields timestamp context, ∀ j ∈ f.2, j.settled = j ∧ j.IsShort := by
  have htext (s : String) : ∀ j ∈ some (Json.text s), j.settled = j ∧ j.IsShort := by
    intro j hj
    cases hj
    exact ⟨rfl, trivial⟩
  simp only [fields, List.forall_mem_cons, List.not_mem_nil, false_imp_iff, implies_true, and_true]
  refine ⟨htext _, htext _, htext _, htext _, fun j hj => ?_, fun j hj => ?_, fun j hj => ?_⟩
  · obtain ⟨id, -, rfl⟩ := Option.map_eq_some_iff.mp hj
    exact ⟨rfl, trivial⟩
  · unfold ShowsContext at h
    split_ifs at h
    · obtain ⟨i, hi, rfl⟩ := h
      cases hj
      have hmirrors := (Json.mirrors_of_ofValue he hi).1
      exact ⟨hmirrors.settled, hmirrors.isShort⟩
    · rw [h] at hj
      cases hj
  · obtain ⟨i, -, rfl⟩ := Option.map_eq_some_iff.mp hj
    exact ⟨rfl, trivial, trivial, trivial⟩

/-- The line of an entry tells it. -/
theorem isToldBy_of_jsonLine (he : e.context.IsJson) (h : e.jsonLine timestamp = .ok line) :
    e.IsToldBy timestamp line := by
  obtain ⟨context, hshows, rfl⟩ := jsonLine_eq_ok.mp h
  have hkeys := (Entries.keys_present_sublist _).nodup (nodup_keys_fields e timestamp context)
  have hparts : ∀ m ∈ Entries.present (e.fields timestamp context),
      m.2.settled = m.2 ∧ m.2.IsShort := by
    intro m hm
    obtain ⟨f, hf, hsome⟩ := List.mem_filterMap.mp hm
    obtain ⟨j, hj, rfl⟩ := Option.map_eq_some_iff.mp hsome
    exact hshows.fields_settled he f hf j hj
  have hsettled : Json.settledMembers (Entries.present (e.fields timestamp context)) =
      Entries.present (e.fields timestamp context) := by
    rw [Json.settledMembers_eq_map]
    exact (List.map_congr_left fun m hm => by rw [(hparts m hm).1]).trans (List.map_id' _)
  have hshort : (Json.object (Entries.present (e.fields timestamp context))).IsShort :=
    Json.haveShort_iff.mpr fun m hm => (hparts m hm).2
  refine ⟨_, ?_, hkeys, isRecordedBy_fields (hshows.map_toValue he)⟩
  rw [Json.read_spaced hshort, Json.settled, hsettled, Entries.ofPairs_eq_self hkeys]

/-- What counts as false has no integer that is too long. -/
theorem isDocument_of_not_isTruthy {v : Value} (hv : v.IsJson) (h : v.isTruthy = false) :
    v.IsDocument := by
  cases v with
  | int n =>
    obtain rfl : n = 0 := by simpa [Value.isTruthy] using h
    exact show Number.decimalLength 0 ≤ Json.integerDigits by decide
  | list items =>
    obtain rfl : items = [] := by simpa [Value.isTruthy] using h
    trivial
  | map entries =>
    obtain rfl : entries = [] := by simpa [Value.isTruthy] using h
    exact ⟨List.nodup_nil, trivial⟩
  | null => trivial
  | bool b => trivial
  | float x => trivial
  | text s => trivial
  | _ => exact hv

/-- An entry whose context is of the kinds of documents has a line exactly if no integer in the context
is too long. -/
theorem exists_jsonLine_iff (he : e.context.IsJson) :
    (∃ line, e.jsonLine timestamp = .ok line) ↔ e.context.IsDocument := by
  cases htruthy : e.context.isTruthy with
  | false =>
    refine ⟨fun _ => isDocument_of_not_isTruthy he htruthy, fun _ => ?_⟩
    exact ⟨_, jsonLine_eq_ok.mpr ⟨none, by rw [ShowsContext, htruthy]; rfl, rfl⟩⟩
  | true =>
    have hdocument : (∃ j, e.contextDocument = .ok j) ↔ e.context.IsDocument :=
      Json.exists_ofValue_iff he
    rw [← hdocument]
    constructor
    · rintro ⟨line, hline⟩
      obtain ⟨context, hshows, -⟩ := jsonLine_eq_ok.mp hline
      rw [ShowsContext, htruthy, if_pos rfl] at hshows
      obtain ⟨j, hj, -⟩ := hshows
      exact ⟨j, hj⟩
    · rintro ⟨j, hj⟩
      exact ⟨_, jsonLine_eq_ok.mpr ⟨some j, by rw [ShowsContext, htruthy]; exact ⟨j, hj, rfl⟩, rfl⟩⟩

/-- The line of an entry is made of printed characters. -/
theorem arePrinted_jsonLine (h : e.jsonLine timestamp = .ok line) : Json.ArePrinted line.toList := by
  obtain ⟨context, -, rfl⟩ := jsonLine_eq_ok.mp h
  exact Json.arePrinted_spaced _

end Entry

/-! ## Files -/

/-- The text of a file that has some lines, each with a line break behind it. -/
def fileText (lines : List String) : String := String.join (lines.map (· ++ "\n"))

/-- The lines of a text, each up to its line break. -/
def linesOf (text : String) : List String :=
  ((text.toList.splitOn '\n').dropLast).map String.ofList

/-- Lines without line breaks are found in their file. -/
theorem linesOf_fileText {lines : List String} (h : ∀ line ∈ lines, '\n' ∉ line.toList) :
    linesOf (fileText lines) = lines := by
  have hsplit : (fileText lines).toList.splitOn '\n' = lines.map String.toList ++ [[]] := by
    rw [fileText, String.toList_join]
    induction lines with
    | nil => rfl
    | cons line lines ih =>
      rw [List.forall_mem_cons] at h
      have hbreaks : ∀ c ∈ line.toList, (c == '\n') = false := fun c hc =>
        beq_eq_false_iff_ne.mpr fun heq => h.1 (heq ▸ hc)
      rw [List.map_cons, List.flatMap_cons, String.toList_append, List.append_assoc,
        List.map_cons, List.cons_append, ← ih h.2]
      exact List.splitOnP_append_cons_of_forall_mem hbreaks '\n' rfl _
  rw [linesOf, hsplit, List.dropLast_concat, List.map_map]
  exact (List.map_congr_left fun line _ => String.ofList_toList).trans (List.map_id' lines)

/-- The lines of entries whose contexts are of the kinds of documents: an entry has one exactly if no
integer in its context is too long; it is made of characters from the blank to the tilde, so a file of
such lines falls into them again, and each line tells its entry. -/
theorem journal_lines_tell_entries {entries : List (String × Entry)}
    (hcontexts : ∀ e ∈ entries, e.2.context.IsJson) :
    (∀ e ∈ entries, (∃ line, e.2.jsonLine e.1 = .ok line) ↔ e.2.context.IsDocument) ∧
    ∀ lines, entries.mapM (fun e => e.2.jsonLine e.1) = .ok lines →
      (∀ line ∈ lines, ∀ c ∈ line.toList, 0x20 ≤ c.toNat ∧ c.toNat ≤ 0x7e) ∧
      linesOf (fileText lines) = lines ∧
      List.Forall₂ (fun e line => e.2.IsToldBy e.1 line) entries lines := by
  refine ⟨fun e he => e.2.exists_jsonLine_iff (hcontexts e he), fun lines hlines => ?_⟩
  have hprinted : ∀ line ∈ lines, Json.ArePrinted line.toList := by
    intro line hline
    obtain ⟨e, -, he⟩ := Outcome.exists_of_mem_mapM hlines hline
    exact Entry.arePrinted_jsonLine he
  refine ⟨hprinted, linesOf_fileText fun line hline hbreak => ?_,
    Outcome.forall₂_of_mapM hlines fun e he line => Entry.isToldBy_of_jsonLine (hcontexts e he)⟩
  exact absurd (hprinted line hline '\n' hbreak) (by decide)

/-- Two entries: one whose texts have line breaks, quotes, a null character and characters beyond the
first plane, and one under a level of its own name. -/
def awkwardEntries : List (String × Entry) :=
  [("2024-01-01T00:00:00+00:00", {
      severity := .warning
      message := "two\nlines \u2028 \"quoted\" 😀"
      component := some "REDIS"
      correlation := some "9f0c"
      context := .map [("kéy\r", .list [.int (-3), .text "\x00\x7f", .map [("", .null)]])] }),
    ("2024-01-01T00:00:01+00:00", { severity := .info, levelName := some "Level 15", message := "" })]

/-- The awkward entries have a line each, and are found in the file of both. -/
theorem awkward_entries_are_told :
    (∀ e ∈ awkwardEntries, e.2.context.IsJson) ∧
    ∃ lines, awkwardEntries.mapM (fun e => e.2.jsonLine e.1) = .ok lines ∧
      (∀ line ∈ lines, ∀ c ∈ line.toList, 0x20 ≤ c.toNat ∧ c.toNat ≤ 0x7e) ∧
      linesOf (fileText lines) = lines ∧
      List.Forall₂ (fun e line => e.2.IsToldBy e.1 line) awkwardEntries lines := by
  have hcontexts : ∀ e ∈ awkwardEntries, e.2.context.IsJson := by
    simp [awkwardEntries, Value.IsJson, Value.AreJson, Value.HoldJson]
  have hdocuments : ∀ e ∈ awkwardEntries, e.2.context.IsDocument := by
    have hshort : Number.decimalLength 3 ≤ Json.integerDigits := by decide
    simp [awkwardEntries, Value.IsDocument, Value.AreDocuments, Value.HoldDocuments, hshort]
  obtain ⟨hexists, htell⟩ := journal_lines_tell_entries hcontexts
  obtain ⟨lines, hlines⟩ := Outcome.exists_mapM_ok fun e he => (hexists e he).mpr (hdocuments e he)
  exact ⟨hcontexts, lines, hlines, htell lines hlines⟩

end TwinStore
