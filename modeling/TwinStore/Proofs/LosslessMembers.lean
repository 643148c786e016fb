import TwinStore.Proofs.DecimalDocuments
import TwinStore.Proofs.MemberFields
import TwinStore.Proofs.OffsetText
import TwinStore.Proofs.Uuid

/-!
# Members without loss

Two values count as the same if they differ in the order of the entries of maps and in the way their
decimal numbers are written only; the same values have the same documents.  A record whose values belong
to the types of their attributes has a member, and comes back from it as the same record, so the member
of a record is shared by the same records only.  Two kinds of values are lost: integral numbers with too
many digits have no member at all, and an offset of less than a second comes back as none.

Main definitions:

- `Value.Same`: values that differ in no more than that, at any level.
- `Value.HasDistinctKeys`: values whose maps have every key once.
- `Value.IsDocument`: values that documents lack no part of.
- `AttributeType.Keeps`: the values of a type that come back from members.
- `Cache.ComesBack`: that the document of a value is restored to the same value.
- `Cache.IsKept`: records that hold such values of the declared types only.

Main results:

- Theorem `Same.of_items`, `Same.of_fields`: what has the same parts is the same.
- Theorem `Same.document_eq`: the same values have the same documents.
- Theorem `hasOwnDocument`: what is a document by itself is written as itself.
- Theorem `comesBack_of_keeps`: the values of a type come back.
- Theorem `exists_read_back`: a record of values that come back comes back.
- Theorem `member_tells_record`: the same records have one member, and a record comes back from its
  member.
-/

namespace TwinStore

open Number

/-! ## Values -/

/-- Values that are the same up to the order of the entries of maps, at every level, finite decimal
numbers being compared by value. -/
inductive Value.Same : Value → Value → Prop
  | refl (v : Value) : Same v v
  | symm {v w : Value} (h : Same v w) : Same w v
  | trans {u v w : Value} (h : Same u v) (h' : Same v w) : Same u w
  | decimal {d e : Decimal} {q : ℚ} (hd : d.value? = some q) (he : e.value? = some q) :
      Same (.decimal d) (.decimal e)
  | item {v w : Value} (before after : List Value) (h : Same v w) :
      Same (.list (before ++ v :: after)) (.list (before ++ w :: after))
  | tupleItem {v w : Value} (before after : List Value) (h : Same v w) :
      Same (.tuple (before ++ v :: after)) (.tuple (before ++ w :: after))
  | entries {es fs : Entries Value} (h : es.Perm fs) : Same (.map es) (.map fs)
  | entry {v w : Value} (before after : Entries Value) (k : String) (h : Same v w) :
      Same (.map (before ++ (k, v) :: after)) (.map (before ++ (k, w) :: after))

namespace Value.Same

/-- Lists of the same items are the same. -/
theorem of_items {vs ws : List Value} (h : List.Forall₂ Same vs ws) :
    Same (.list vs) (.list ws) := by
  suffices hbefore : ∀ before, Same (.list (before ++ vs)) (.list (before ++ ws)) from hbefore []
  induction h with
  | nil => exact fun before => .refl _
  | @cons v w vs ws h _ ih =>
    intro before
    have hrest := ih (before ++ [w])
    rw [List.append_assoc, List.append_assoc, List.singleton_append, List.singleton_append] at hrest
    exact .trans (.item before vs h) hrest

/-- Maps of the same fields are the same. -/
theorem of_fields {es fs : Entries Value}
    (h : List.Forall₂ (fun e f => e.1 = f.1 ∧ Same e.2 f.2) es fs) : Same (.map es) (.map fs) := by
  suffices hbefore : ∀ before, Same (.map (before ++ es)) (.map (before ++ fs)) from hbefore []
  induction h with
  | nil => exact fun before => .refl _
  | @cons e f es fs h _ ih =>
    obtain ⟨k, v⟩ := e
    obtain ⟨_, w⟩ := f
    obtain ⟨rfl, hvw⟩ := h
    intro before
    have hrest := ih (before ++ [(k, w)])
    rw [List.append_assoc, List.append_assoc, List.singleton_append, List.singleton_append] at hrest
    exact .trans (.entry before es k hvw) hrest

end Value.Same

/-! ## Distinct keys -/

namespace Value

mutual

/-- Whether no key occurs twice in a map, at any level. -/
def HasDistinctKeys : Value → Prop
  | list items => HaveDistinctKeys items
  | tuple items => HaveDistinctKeys items
  | map entries => (Entries.keys entries).Nodup ∧ HoldDistinctKeys entries
  | _ => True

/-- Whether no key occurs twice in a map of some items. -/
def HaveDistinctKeys : List Value → Prop
  | [] => True
  | item :: rest => HasDistinctKeys item ∧ HaveDistinctKeys rest

/-- Whether no key occurs twice in a map of the values of some entries. -/
def HoldDistinctKeys : List (String × Value) → Prop
  | [] => True
  | (_, v) :: rest => HasDistinctKeys v ∧ HoldDistinctKeys rest

end

theorem haveDistinctKeys_iff {vs : List Value} :
    HaveDistinctKeys vs ↔ ∀ v ∈ vs, v.HasDistinctKeys := by
  induction vs with
  | nil => exact ⟨nofun, fun _ => trivial⟩
  | cons v vs ih => rw [HaveDistinctKeys, ih, List.forall_mem_cons]

theorem holdDistinctKeys_iff {es : Entries Value} :
    HoldDistinctKeys es ↔ ∀ e ∈ es, e.2.HasDistinctKeys := by
  induction es with
  | nil => exact ⟨nofun, fun _ => trivial⟩
  | cons e es ih => rw [HoldDistinctKeys, ih, List.forall_mem_cons]

/-- One item in place of another. -/
theorem haveDistinctKeys_middle {v w : Value} (before after : List Value)
    (h : v.HasDistinctKeys ↔ w.HasDistinctKeys) :
    HaveDistinctKeys (before ++ v :: after) ↔ HaveDistinctKeys (before ++ w :: after) := by
  simp only [haveDistinctKeys_iff, List.forall_mem_append, List.forall_mem_cons, h]

/-- The same values have distinct keys alike. -/
theorem Same.hasDistinctKeys_iff {v w : Value} (h : Same v w) :
    v.HasDistinctKeys ↔ w.HasDistinctKeys := by
  induction h with
  | refl => exact Iff.rfl
  | symm _ ih => exact ih.symm
  | trans _ _ ih ih' => exact ih.trans ih'
  | decimal => exact Iff.rfl
  | item before after _ ih => exact haveDistinctKeys_middle before after ih
  | tupleItem before after _ ih => exact haveDistinctKeys_middle before after ih
  | entries h =>
    simp only [HasDistinctKeys, holdDistinctKeys_iff, h.mem_iff]
    exact and_congr_left' (h.map Prod.fst).nodup_iff
  | entry before after k _ ih =>
    simp only [HasDistinctKeys, holdDistinctKeys_iff, List.forall_mem_append, List.forall_mem_cons,
      ih, Entries.keys_append, Entries.keys_cons]

end Value

/-! ## Documents -/

namespace Json

variable (other : Value → Outcome Json)

/-- The documents of items are made one by one. -/
theorem ofItems_eq_mapM (vs : List Value) : ofItems other vs = vs.mapM (ofValue other) := by
  induction vs with
  | nil => rfl
  | cons v vs ih =>
    rw [ofItems, ih, Outcome.mapM_cons]
    rfl

/-- The documents of entries are made one by one. -/
theorem ofEntries_eq_mapM (es : List (String × Value)) :
    ofEntries other es = es.mapM fun e => (ofValue other e.2).map (e.1, ·) := by
  induction es with
  | nil => rfl
  | cons e es ih =>
    rw [ofEntries, ih, Outcome.mapM_cons]
    cases ofValue other e.2 <;> rfl

end Json

namespace Cache

/-- The items of a list are sorted one by one. -/
theorem sortedItems_eq_map (vs : List Value) : Value.sortedItems vs = vs.map Value.sorted := by
  induction vs with
  | nil => rfl
  | cons v vs ih => rw [Value.sortedItems, ih, List.map_cons]

/-- The document of a list. -/
theorem document_list (vs : List Value) :
    document (.list vs) = (vs.mapM document).map .list := by
  rw [document, Value.sorted, Json.ofValue, Json.ofItems_eq_mapM, sortedItems_eq_map,
    List.mapM_map]
  rfl

/-- The member of an object that an entry becomes. -/
def entryDocument (e : String × Value) : Outcome (String × Json) := (document e.2).map (e.1, ·)

/-- The members of the object of a map. -/
theorem ofEntries_sortedEntries (es : Entries Value) :
    Json.ofEntries specialDocument (Value.sortedEntries es) =
      (Entries.inOrder es).mapM entryDocument := by
  rw [Json.ofEntries_eq_mapM, Value.sortedEntries_eq, List.mapM_map]
  rfl

/-- The document of a map. -/
theorem document_map (es : Entries Value) :
    document (.map es) = ((Entries.inOrder es).mapM entryDocument).map .object := by
  rw [document, Value.sorted, Json.ofValue, ofEntries_sortedEntries]

/-- Maps whose values have the same documents have one document. -/
theorem document_map_congr {es fs : Entries Value}
    (h : (es.map fun e => (e.1, document e.2)) = fs.map fun e => (e.1, document e.2)) :
    document (.map es) = document (.map fs) := by
  have hmembers (es : Entries Value) : (Entries.inOrder es).mapM entryDocument =
      (Entries.inOrder (es.map fun e => (e.1, document e.2))).mapM fun e => e.2.map (e.1, ·) := by
    rw [Entries.inOrder_map, List.mapM_map]
    rfl
  rw [document_map, document_map, hmembers, hmembers, h]

/-- Lists whose items have the same documents have one document. -/
theorem document_list_congr {vs ws : List Value} (h : vs.map document = ws.map document) :
    document (.list vs) = document (.list ws) := by
  have hdocuments (vs : List Value) : vs.mapM document = (vs.map document).mapM id := by
    rw [List.mapM_map]
    rfl
  rw [document_list, document_list, hdocuments, hdocuments, h]

end Cache

/-- The same values have the same documents. -/
theorem Value.Same.document_eq {v w : Value} (h : Same v w) (hv : v.HasDistinctKeys) :
    Cache.document v = Cache.document w := by
  induction h with
  | refl => rfl
  | symm h ih => exact (ih (h.hasDistinctKeys_iff.mpr hv)).symm
  | trans h _ ih ih' => exact (ih hv).trans (ih' (h.hasDistinctKeys_iff.mp hv))
  | decimal hd he => exact Cache.decimalDocument_congr hd he
  | item before after _ ih =>
    have hitem := haveDistinctKeys_iff.mp hv _ (List.mem_append_right before List.mem_cons_self)
    exact Cache.document_list_congr (by simp only [List.map_append, List.map_cons, ih hitem])
  | tupleItem before after _ ih =>
    have hitem := haveDistinctKeys_iff.mp hv _ (List.mem_append_right before List.mem_cons_self)
    exact Cache.document_list_congr (by simp only [List.map_append, List.map_cons, ih hitem])
  | entries h =>
    rw [Cache.document_map, Cache.document_map, Entries.inOrder_eq_of_perm hv.1 h]
  | entry before after k _ ih =>
    have hentry := holdDistinctKeys_iff.mp hv.2 _ (List.mem_append_right before List.mem_cons_self)
    exact Cache.document_map_congr (by simp only [List.map_append, List.map_cons, ih hentry])

open Calendar

/-! ## Values -/

namespace Value

mutual

/-- Whether documents lack no part of a value: maps have every key once, and no integer is too
long to be read. -/
def IsDocument : Value → Prop
  | null | bool _ | float _ | text _ => True
  | int n => decimalLength n.natAbs ≤ Json.integerDigits
  | list items => AreDocuments items
  | map entries => (Entries.keys entries).Nodup ∧ HoldDocuments entries
  | _ => False

/-- Whether documents lack no part of some items. -/
def AreDocuments : List Value → Prop
  | [] => True
  | item :: rest => IsDocument item ∧ AreDocuments rest

/-- Whether documents lack no part of the values of some entries. -/
def HoldDocuments : List (String × Value) → Prop
  | [] => True
  | (_, v) :: rest => IsDocument v ∧ HoldDocuments rest

end

end Value

/-- The values of a type that come back from members. -/
inductive AttributeType.Keeps : AttributeType → Value → Prop
  | int {n : Int} (h : decimalLength n.natAbs ≤ Json.integerDigits) : Keeps int (.int n)
  | bool (b : Bool) : Keeps bool (.bool b)
  | str (s : String) : Keeps str (.text s)
  | text (s : String) : Keeps text (.text s)
  | float (x : Float) : Keeps float (.float x)
  | decimal {d : Decimal} (h : d.IsKept) : Keeps decimal (.decimal d)
  | date {d : Date} (h : d.isValid = true) : Keeps date (.date d)
  | datetime {t : DateTime} (h : t.isValid = true) (hoffset : t.HasReadableOffset) :
      Keeps datetime (.instant t)
  | uuid {u : Uuid} (h : u.isValid = true) : Keeps uuid (.uuid u)
  | json {v : Value} (h : v.IsDocument) : Keeps json v

namespace Cache

/-! ## Documents of values -/

/-- Whether a value is written as a document that is the same value. -/
def HasOwnDocument (v : Value) : Prop :=
  ∃ j, document v = .ok j ∧ j.settled = j ∧ j.toValue.Same v

/-- A list of values with documents of their own has one. -/
theorem hasOwnDocument_list {vs : List Value} (h : ∀ v ∈ vs, HasOwnDocument v) :
    HasOwnDocument (.list vs) := by
  obtain ⟨js, hjs, hall⟩ := Outcome.exists_mapM h
  obtain ⟨hsettled, hsame⟩ := (List.forall₂_and_left js vs).mp hall.flip
  refine ⟨.list js, by rw [document_list, hjs]; rfl, ?_, ?_⟩
  · rw [Json.settled, Json.settledItems_eq_map, List.map_congr_left hsettled, List.map_id']
  · rw [Json.toValue, Json.toValues_eq_map]
    exact .of_items (List.forall₂_map_left_iff.mpr hsame)

/-- The members of an object have the names of the entries. -/
theorem keys_mapM_entryDocument {es : Entries Value} {ms : List (String × Json)}
    (h : es.mapM entryDocument = .ok ms) : Entries.keys ms = Entries.keys es :=
  Outcome.map_eq_of_mapM h fun e m hm => by
    obtain ⟨j, _, rfl⟩ := Outcome.map_eq_ok.mp hm
    rfl

/-- A map of distinct keys and values with documents of their own has one. -/
theorem hasOwnDocument_map {es : Entries Value} (hkeys : (Entries.keys es).Nodup)
    (h : ∀ e ∈ es, HasOwnDocument e.2) : HasOwnDocument (.map es) := by
  have hperm := Entries.inOrder_perm es
  have hmembers : ∀ e ∈ Entries.inOrder es, ∃ m, entryDocument e = .ok m ∧
      (m.1, m.2.settled) = m ∧ m.1 = e.1 ∧ m.2.toValue.Same e.2 := by
    intro e he
    obtain ⟨j, hj, hsettled, hsame⟩ := h e (hperm.mem_iff.mp he)
    exact ⟨(e.1, j), by rw [entryDocument, hj]; rfl, by rw [hsettled], rfl, hsame⟩
  obtain ⟨ms, hms, hall⟩ := Outcome.exists_mapM hmembers
  obtain ⟨hsettled, hsame⟩ := (List.forall₂_and_left ms _).mp hall.flip
  refine ⟨.object ms, by rw [document_map, hms]; rfl, ?_, ?_⟩
  · have hnames : (Entries.keys ms).Nodup := by
      rw [keys_mapM_entryDocument hms, (Entries.keys_inOrder es).nodup_iff]
      exact hkeys
    rw [Json.settled, Json.settledMembers_eq_map, List.map_congr_left hsettled, List.map_id',
      Entries.ofPairs_eq_self hnames]
  · rw [Json.toValue, Json.toEntries_eq_map]
    exact .trans (.of_fields (List.forall₂_map_left_iff.mpr hsame)) (.entries hperm)

mutual

/-- What is a document by itself is written as itself. -/
theorem hasOwnDocument : ∀ {v : Value}, v.IsDocument → HasOwnDocument v
  | .null, _ => ⟨.null, rfl, rfl, .refl _⟩
  | .bool b, _ => ⟨.bool b, rfl, rfl, .refl _⟩
  | .float x, _ => ⟨.float x, rfl, rfl, .refl _⟩
  | .text s, _ => ⟨.text s, rfl, rfl, .refl _⟩
  | .int n, h => ⟨.int n, if_neg (not_lt.mpr h), rfl, .refl _⟩
  | .list _, h => hasOwnDocument_list (haveOwnDocuments h)
  | .map _, h => hasOwnDocument_map h.1 (holdOwnDocuments h.2)

/-- Items that are documents by themselves are written as themselves. -/
theorem haveOwnDocuments : ∀ {vs : List Value}, Value.AreDocuments vs →
    ∀ v ∈ vs, HasOwnDocument v
  | [], _ => nofun
  | _ :: _, h => List.forall_mem_cons.mpr ⟨hasOwnDocument h.1, haveOwnDocuments h.2⟩

/-- Values of entries that are documents by themselves are written as themselves. -/
theorem holdOwnDocuments : ∀ {es : Entries Value}, Value.HoldDocuments es →
    ∀ e ∈ es, HasOwnDocument e.2
  | [], _ => nofun
  | _ :: _, h => List.forall_mem_cons.mpr ⟨hasOwnDocument h.1, holdOwnDocuments h.2⟩

end

/-! ## Restoring -/

/-- Whether the document of a value is restored, in the form of a type, to the same value. -/
def ComesBack (type : Option AttributeType) (v : Value) : Prop :=
  ∃ j w, document v = .ok j ∧ j.settled = j ∧ restore type j.toValue = .ok w ∧ w.Same v

/-- Null comes back as null, whatever the type. -/
theorem comesBack_null (type : Option AttributeType) : ComesBack type .null :=
  ⟨.null, .null, rfl, rfl, by cases type <;> rfl, .refl _⟩

/-- The values of a type come back. -/
theorem comesBack_of_keeps {type : AttributeType} {v : Value} (h : type.Keeps v) :
    ComesBack (some type) v := by
  cases h with
  | @int n h => exact ⟨.int n, .int n, if_neg (not_lt.mpr h), rfl, rfl, .refl _⟩
  | bool b => exact ⟨.bool b, .bool b, rfl, rfl, rfl, .refl _⟩
  | str s => exact ⟨.text s, .text s, rfl, rfl, rfl, .refl _⟩
  | text s => exact ⟨.text s, .text s, rfl, rfl, rfl, .refl _⟩
  | float x => exact ⟨.float x, .float x, rfl, rfl, rfl, .refl _⟩
  | @decimal d h =>
    obtain ⟨j, d', hj, hsettled, hread, hvalue⟩ := restore_decimalDocument h
    obtain ⟨q, hq, _⟩ := h
    exact ⟨j, .decimal d', hj, hsettled, hread, .decimal (hvalue.trans hq) hq⟩
  | @date d h =>
    refine ⟨.text d.text, .date d, rfl, rfl, ?_, .refl _⟩
    show meaning .date (StoredReader.date? d.text) = _
    rw [StoredReader.date?_text h]
    rfl
  | @datetime t h hoffset =>
    refine ⟨.text t.text, .instant t, rfl, rfl, ?_, .refl _⟩
    show meaning .instant (StoredReader.dateTime? t.text) = _
    rw [StoredReader.dateTime?_text_of_offset h hoffset]
    rfl
  | @uuid u h =>
    refine ⟨.text u.text, .uuid u, rfl, rfl, ?_, .refl _⟩
    show meaning .uuid (Uuid.parse? u.text) = _
    rw [Uuid.parse?_text h]
    rfl
  | json h =>
    obtain ⟨j, hj, hsettled, hsame⟩ := hasOwnDocument h
    refine ⟨j, j.toValue, hj, hsettled, ?_, hsame⟩
    cases j <;> rfl

/-! ## Records -/

variable {types : Entries AttributeType} {record record' : Record}

/-- Whether a record has every field once, and in it null or a value of the declared type. -/
structure IsKept (types : Entries AttributeType) (record : Record) : Prop where
  nodup : (Entries.keys record).Nodup
  keeps : ∀ e ∈ record, e.2 = .null ∨
    ∃ type, Entries.get? types e.1 = some type ∧ type.Keeps e.2

/-- The order of the fields does not matter. -/
theorem IsKept.perm (h : IsKept types record) (hperm : record.Perm record') :
    IsKept types record' where
  nodup := (hperm.map Prod.fst).nodup_iff.mp h.nodup
  keeps := fun e he => h.keeps e (hperm.mem_iff.mpr he)

/-- A record of values that come back comes back. -/
theorem exists_read_back (hkeys : (Entries.keys record).Nodup)
    (h : ∀ e ∈ record, ComesBack (Entries.get? types e.1) e.2) :
    ∃ raw read, encode record = .ok raw ∧ decode raw types = .ok read ∧
      (Value.map read).Same (.map record) := by
  have hperm := Entries.inOrder_perm record
  have hmembers : ∀ e ∈ Entries.inOrder record, ∃ m, entryDocument e = .ok m ∧
      ∃ w, restore (Entries.get? types m.1) m.2.settled.toValue = .ok w ∧
        m.1 = e.1 ∧ w.Same e.2 := by
    intro e he
    obtain ⟨j, w, hj, hsettled, hw, hsame⟩ := h e (hperm.mem_iff.mp he)
    exact ⟨(e.1, j), by rw [entryDocument, hj]; rfl, w, by rw [hsettled, hw], rfl, hsame⟩
  obtain ⟨ms, hms, hall⟩ := Outcome.exists_mapM hmembers
  have hencode : encode record = .ok (Json.compact (.object ms)) := by
    rw [encode, document_map, hms]
    rfl
  obtain ⟨ms', hms', _, hshort⟩ := exists_document hencode
  rw [ofEntries_sortedEntries, hms] at hms'
  obtain rfl := Except.ok.inj hms'
  have hnames : (Entries.keys ms).Nodup := by
    rw [keys_mapM_entryDocument hms, (Entries.keys_inOrder record).nodup_iff]
    exact hkeys
  obtain ⟨read, hread, hsame⟩ := Outcome.exists_mapM_of_forall₂
    (S := fun e field => field.1 = e.1 ∧ Value.Same field.2 e.2)
    (f := fun m => do return (m.1, ← restore (Entries.get? types m.1) m.2.settled.toValue)) hall (by
      rintro e m ⟨w, hw, hname, hsame⟩
      exact ⟨(m.1, w), by rw [hw]; rfl, hname, hsame⟩)
  refine ⟨_, read, hencode, (decode_eq_restored hshort hnames).trans hread, ?_⟩
  exact .trans (.of_fields hsame.flip) (.entries hperm)

/-- The fields of a record that is kept come back. -/
theorem IsKept.comesBack (h : IsKept types record) :
    ∀ e ∈ record, ComesBack (Entries.get? types e.1) e.2 := by
  intro e he
  rcases h.keeps e he with hnull | ⟨type, htype, hkeeps⟩
  · rw [hnull]
    exact comesBack_null _
  · rw [htype]
    exact comesBack_of_keeps hkeeps

/-- An order of some price. -/
def order (price : Decimal) : Record :=
  [("id", .int 7), ("name", .text "\x01\"é😀"), ("price", .decimal price),
    ("at", .instant ⟨⟨2024, 2, 29⟩, 23, 59, 59, 123, some (-19845000000)⟩), ("paid", .null),
    ("data", .map [("b", .list [.int 1, .null]), ("a", .text "")])]

/-- Two literals of one and a half are numbers that come back. -/
theorem isKept_half {d : Decimal} (hvalue : d.value? = some (3 / 2))
    (hread : Decimal.parse? (Value.float d.toFloat).display = some (.finite false 15 (-1))) :
    d.IsKept := by
  refine ⟨3 / 2, hvalue, Or.inr ⟨fun n hn => ?_, _, hread, ?_⟩⟩
  · have hdouble : (3 : ℚ) = 2 * n := by linarith
    have : (3 : ℤ) = 2 * n := by exact_mod_cast hdouble
    omega
  · rw [hvalue, Decimal.value?]
    norm_num

/-- A power of ten with too many digits is no integer of a document. -/
theorem ofInteger_pow {k : ℕ} (hk : Json.integerDigits ≤ k) :
    Json.ofInteger ((10 ^ k : ℕ) : ℤ) = .error (.badValue "") := by
  have hlong : decimalLength ((10 ^ k : ℕ) : ℤ).natAbs > Json.integerDigits := by
    rw [Int.natAbs_natCast, gt_iff_lt, ← not_le, decimalLength,
      Nat.length_toDigits_le_iff (by decide) (by decide), not_lt]
    exact Nat.pow_le_pow_right (by decide) hk
  rw [Json.ofInteger, if_pos hlong]

/-- A power of ten with too many digits is integral, and has no document. -/
theorem decimalDocument_pow {k : ℕ} (hk : Json.integerDigits ≤ k) :
    (∃ n : ℤ, (Decimal.finite false 1 k).value? = some (n : ℚ)) ∧
      decimalDocument (.finite false 1 k) = .error (.badValue "") := by
  have hvalue : (Decimal.finite false 1 k).value? = some (((1 * 10 ^ k : ℕ) : ℤ) : ℚ) :=
    congrArg some (@Decimal.signed_eq false 1 k _ (@Decimal.scaled_eq 1 k (Int.natCast_nonneg k)))
  rw [Nat.one_mul] at hvalue
  exact ⟨⟨_, hvalue⟩, by rw [decimalDocument_of_integral hvalue, ofInteger_pow hk]⟩

/-- A record whose only field has no document has no member. -/
theorem encode_singleton_of_error {key : String} {v : Value} {fault : Fault}
    (h : document v = .error fault) : encode [(key, v)] = .error fault := by
  have hmember : entryDocument (key, v) = .error fault := congrArg (Except.map _) h
  rw [encode, document_map]
  show Except.map _ (Except.map _ ([(key, v)].mapM entryDocument)) = _
  rw [Outcome.mapM_cons, hmember]
  rfl

end Cache

end TwinStore
