import TwinStore.Proofs.ReadDocuments

/-!
# Documents in print

However a text looks, its literal is made of characters that can be printed in ASCII, so a document
on one line stays on that line.  A value of the kinds that documents have is written as the document
that it is, and read back in the order of its entries; only an integer can be too long for that.

Main definitions:

- `Json.IsPrinted`: the characters of which documents are made.
- `Value.IsJson`: the values of which documents lack no kind.
- `Json.Mirrors`: the document that is read back as it was written, and is a value.

Main results:

- Theorem `Json.isPrinted_line`: the characters of a document on one line.
- Theorem `Json.mirrors_of_ofValue`: the document of a value, if it has one, is the value.
- Theorem `Json.exists_ofValue_iff`: which values have a document.
-/

namespace TwinStore.Json

open Number

/-! ## Characters -/

/-- Whether a character is one of those from the blank to the tilde. -/
def IsPrinted (c : Char) : Prop := 0x20 ≤ c.toNat ∧ c.toNat ≤ 0x7e

instance (c : Char) : Decidable (IsPrinted c) := inferInstanceAs (Decidable (_ ∧ _))

/-- Whether all characters of a text are printed ones. -/
def ArePrinted (cs : List Char) : Prop := ∀ c ∈ cs, IsPrinted c

instance (cs : List Char) : Decidable (ArePrinted cs) := List.decidableBAll IsPrinted cs

@[simp]
theorem arePrinted_append {cs ds : List Char} :
    ArePrinted (cs ++ ds) ↔ ArePrinted cs ∧ ArePrinted ds := List.forall_mem_append

@[simp]
theorem arePrinted_cons {c : Char} {cs : List Char} :
    ArePrinted (c :: cs) ↔ IsPrinted c ∧ ArePrinted cs := List.forall_mem_cons

@[simp]
theorem arePrinted_nil : ArePrinted [] := nofun

/-- Texts with a printed text between them are printed. -/
theorem arePrinted_intercalate {mark : String} (hmark : ArePrinted mark.toList) {parts : List String}
    (h : ∀ s ∈ parts, ArePrinted s.toList) : ArePrinted (mark.intercalate parts).toList := by
  induction parts with
  | nil => exact arePrinted_nil
  | cons s parts ih =>
    rw [List.forall_mem_cons] at h
    cases parts with
    | nil =>
      rw [String.intercalate_singleton]
      exact h.1
    | cons t parts =>
      rw [String.intercalate_cons_cons, String.toList_append, String.toList_append]
      simp only [arePrinted_append]
      exact ⟨⟨h.1, hmark⟩, ih h.2⟩

/-! ## Atoms -/

/-- Digits are printed, also hexadecimal ones. -/
theorem isPrinted_digitChar {d : Nat} (hd : d < 16) : IsPrinted (Nat.digitChar d) := by
  interval_cases d <;> decide

/-- Runs of digits are printed. -/
theorem arePrinted_of_allDigits {cs : List Char} (h : AllDigits cs) : ArePrinted cs := by
  intro c hc
  obtain ⟨d, hd, rfl⟩ := h c hc
  exact isPrinted_digitChar (by omega)

/-- An escape is printed. -/
theorem arePrinted_escapeUnit {n : Nat} (hn : n < 16 ^ 4) : ArePrinted (escapeUnit n).toList := by
  rw [escapeUnit_toList hn, arePrinted_cons, arePrinted_cons]
  refine ⟨by decide, by decide, fun c hc => ?_⟩
  obtain ⟨d, hd, rfl⟩ := exists_digit_of_mem_fixedDigits (by decide) hc
  exact isPrinted_digitChar hd

/-- Every character is written with printed ones. -/
theorem arePrinted_quoteChar (c : Char) : ArePrinted (quoteChar c).toList := by
  rw [quoteChar]
  split_ifs
  · decide
  · decide
  · decide
  · decide
  · decide
  · decide
  · decide
  simp only
  split_ifs with hplain hunit
  · rw [show c.toString.toList = [c] from String.toList_singleton c, arePrinted_cons]
    exact ⟨hplain, arePrinted_nil⟩
  · exact arePrinted_escapeUnit hunit
  · -- Beyond the first plane both units are surrogates.
    have hlimit : c.toNat < 0x110000 := by
      rcases toNat_cases c with h | h <;> omega
    rw [String.toList_append, arePrinted_append]
    exact ⟨arePrinted_escapeUnit (by omega), arePrinted_escapeUnit (by omega)⟩

/-- A text is written with printed characters. -/
theorem arePrinted_quoteText (s : String) : ArePrinted (quoteText s).toList := by
  rw [quoteText_toList, arePrinted_cons, arePrinted_append]
  refine ⟨by decide, fun c hc => ?_, by decide⟩
  obtain ⟨part, hpart, hc⟩ := List.mem_flatMap.mp hc
  obtain ⟨d, -, rfl⟩ := List.mem_map.mp hpart
  exact arePrinted_quoteChar d c hc

/-- An integer is written with printed characters. -/
theorem arePrinted_integerText (n : Int) : ArePrinted (integerText n).toList := by
  rw [integerText_toList, arePrinted_append]
  refine ⟨?_, arePrinted_of_allDigits (AllDigits.toDigits n.natAbs)⟩
  split_ifs <;> decide

/-- A spelling of a number is printed. -/
theorem arePrinted_chars {s : Spelling} {c : Nat} (h : s.Shows c) : ArePrinted s.chars := by
  rw [Spelling.chars, arePrinted_append, arePrinted_append]
  refine ⟨arePrinted_of_allDigits h.whole, ?_, ?_⟩
  · rw [Spelling.fraction]
    split_ifs
    · exact arePrinted_nil
    · exact arePrinted_cons.mpr ⟨by decide, arePrinted_of_allDigits h.places⟩
  · rw [Spelling.mark]
    split
    · exact arePrinted_nil
    · next place _ =>
      obtain ⟨d, ds, hpadded, hdigits, -⟩ := exists_padded 2 place.natAbs
      rw [arePrinted_cons, arePrinted_append, hpadded]
      refine ⟨by decide, ?_, arePrinted_of_allDigits hdigits⟩
      split_ifs <;> decide

/-- A double is written with printed characters. -/
theorem arePrinted_float (x : Float) :
    ArePrinted (Binary64.documentLayout.text x).toList := by
  rw [Binary64.Layout.text]
  split
  · next s _ =>
    obtain ⟨spelling, c, hchars, hshows, -⟩ := exists_spelling Binary64.documentLayout
      (Binary64.shortestDigits s.mantissa.natAbs s.exponent).1
      (Binary64.shortestDigits s.mantissa.natAbs s.exponent).2
    simp only
    rw [String.toList_append, hchars, arePrinted_append]
    refine ⟨?_, arePrinted_chars hshows⟩
    split_ifs <;> decide
  · split_ifs <;> decide

/-- An atom is written with printed characters. -/
theorem arePrinted_atomText (j : Json) : ArePrinted (atomText j).toList := by
  cases j with
  | null => decide
  | bool b => cases b <;> decide
  | int n => exact arePrinted_integerText n
  | float x => exact arePrinted_float x
  | text s => exact arePrinted_quoteText s
  | list items => exact arePrinted_nil
  | object members => exact arePrinted_nil

/-! ## Lines -/

mutual

/-- A document on one line is made of printed characters, if the marks between its parts are. -/
theorem arePrinted_line {comma colon : String} (hcomma : ArePrinted comma.toList)
    (hcolon : ArePrinted colon.toList) : ∀ j : Json, ArePrinted (line comma colon j).toList
  | list items => by
    rw [line, String.toList_append, String.toList_append, arePrinted_append, arePrinted_append]
    exact ⟨⟨by decide, arePrinted_intercalate hcomma (arePrinted_lineItems hcomma hcolon items)⟩, by decide⟩
  | object members => by
    rw [line, String.toList_append, String.toList_append, arePrinted_append, arePrinted_append]
    exact ⟨⟨by decide, arePrinted_intercalate hcomma (arePrinted_lineMembers hcomma hcolon members)⟩, by decide⟩
  | null => arePrinted_atomText .null
  | bool b => arePrinted_atomText (.bool b)
  | int n => arePrinted_atomText (.int n)
  | float x => arePrinted_atomText (.float x)
  | text s => arePrinted_atomText (.text s)

/-- The items of a list are made of printed characters. -/
theorem arePrinted_lineItems {comma colon : String} (hcomma : ArePrinted comma.toList)
    (hcolon : ArePrinted colon.toList) : ∀ items : List Json, ∀ s ∈ lineItems comma colon items, ArePrinted s.toList
  | [] => nofun
  | item :: rest => List.forall_mem_cons.mpr ⟨arePrinted_line hcomma hcolon item, arePrinted_lineItems hcomma hcolon rest⟩

/-- The members of an object are made of printed characters. -/
theorem arePrinted_lineMembers {comma colon : String} (hcomma : ArePrinted comma.toList)
    (hcolon : ArePrinted colon.toList) : ∀ members : List (String × Json), ∀ s ∈ lineMembers comma colon members, ArePrinted s.toList
  | [] => nofun
  | (k, v) :: rest => by
    refine List.forall_mem_cons.mpr ⟨?_, arePrinted_lineMembers hcomma hcolon rest⟩
    rw [member_toList, arePrinted_append, arePrinted_append]
    exact ⟨arePrinted_quoteText k, hcolon, arePrinted_line hcomma hcolon v⟩

end

/-- A document on one line with blanks after the marks is made of printed characters. -/
theorem arePrinted_spaced (j : Json) : ArePrinted (spaced j).toList :=
  arePrinted_line (by decide) (by decide) j

/-- The line of a document with blanks after the marks is read back. -/
theorem read_spaced {j : Json} (hj : j.IsShort) : Json.read (spaced j) = .ok j.settled := by
  have hblank : ∀ c ∈ [' '], isSpace c = true := List.forall_mem_singleton.mpr rfl
  have hcomma : IsSeparator ',' ", " := ⟨[' '], rfl, hblank⟩
  have hcolon : IsSeparator ':' ": " := ⟨[' '], rfl, hblank⟩
  rw [Json.read, spaced, parse_line hcomma hcolon hj]

end TwinStore.Json

namespace TwinStore.Outcome

variable {α β : Type} {f : α → Outcome β} {as : List α}

/-- What every result of a list has, the results together have. -/
theorem forall₂_of_mapM {R : α → β → Prop} {bs : List β} (h : as.mapM f = .ok bs)
    (hR : ∀ a ∈ as, ∀ b, f a = .ok b → R a b) : List.Forall₂ R as bs := by
  rw [mapM_eq_ok_iff] at h
  induction h with
  | nil => exact .nil
  | cons hab _ ih =>
    rw [List.forall_mem_cons] at hR
    exact .cons (hR.1 _ hab) (ih hR.2)

/-- A list has results together if each of it has one. -/
theorem exists_mapM_ok (h : ∀ a ∈ as, ∃ b, f a = .ok b) : ∃ bs, as.mapM f = .ok bs := by
  obtain ⟨bs, hbs, -⟩ := exists_mapM_all (P := fun _ => True) fun a ha =>
    (h a ha).imp fun _ hb => ⟨hb, trivial⟩
  exact ⟨bs, hbs⟩

end TwinStore.Outcome

namespace TwinStore.Value

/-! ## Values of the kinds of documents -/

mutual

/-- Whether a value is of the kinds of documents, in every part; maps have every key once. -/
def IsJson : Value → Prop
  | null | bool _ | int _ | float _ | text _ => True
  | list items => AreJson items
  | map entries => (Entries.keys entries).Nodup ∧ HoldJson entries
  | _ => False

/-- Whether some items are of the kinds of documents. -/
def AreJson : List Value → Prop
  | [] => True
  | item :: rest => IsJson item ∧ AreJson rest

/-- Whether the values of some entries are of the kinds of documents. -/
def HoldJson : List (String × Value) → Prop
  | [] => True
  | (_, v) :: rest => IsJson v ∧ HoldJson rest

end

end TwinStore.Value

namespace TwinStore.Json

/-- Whether a document is read back as it was written, and is a value. -/
structure Mirrors (j : Json) (v : Value) : Prop where
  toValue : j.toValue = v
  settled : j.settled = j
  isShort : j.IsShort

/-- A list of documents mirrors the list of their values. -/
theorem mirrors_list {js : List Json} {vs : List Value} (h : List.Forall₂ Mirrors js vs) :
    (list js).Mirrors (.list vs) := by
  have hparts : (settledItems js = js ∧ AreShort js) ∧ toValues js = vs := by
    induction h with
    | nil => exact ⟨⟨rfl, trivial⟩, rfl⟩
    | cons hj _ ih =>
      obtain ⟨⟨hsettled, hshort⟩, hvalues⟩ := ih
      exact ⟨⟨by rw [settledItems, hj.settled, hsettled], hj.isShort, hshort⟩,
        by rw [toValues, hj.toValue, hvalues]⟩
  exact ⟨by rw [Json.toValue, hparts.2], by rw [Json.settled, hparts.1.1], hparts.1.2⟩

/-- An object of different names mirrors the map of the values of its members. -/
theorem mirrors_object {ms : List (String × Json)} {es : Entries Value}
    (hkeys : (Entries.keys es).Nodup)
    (h : List.Forall₂ (fun m e => m.1 = e.1 ∧ Mirrors m.2 e.2) ms es) :
    (object ms).Mirrors (.map es) := by
  have hparts : (settledMembers ms = ms ∧ HaveShort ms) ∧ toEntries ms = es ∧
      Entries.keys ms = Entries.keys es := by
    clear hkeys
    induction h with
    | nil => exact ⟨⟨rfl, trivial⟩, rfl, rfl⟩
    | @cons m e ms es hm _ ih =>
      obtain ⟨⟨hsettled, hshort⟩, hentries, hnames⟩ := ih
      obtain ⟨k, j⟩ := m
      obtain ⟨k', v⟩ := e
      obtain ⟨rfl, hj⟩ := hm
      exact ⟨⟨by rw [settledMembers, hj.settled, hsettled], hj.isShort, hshort⟩,
        by rw [toEntries, hj.toValue, hentries], by rw [Entries.keys_cons, Entries.keys_cons, hnames]⟩
  obtain ⟨⟨hsettled, hshort⟩, hentries, hnames⟩ := hparts
  refine ⟨by rw [Json.toValue, hentries], ?_, hshort⟩
  rw [Json.settled, hsettled, Entries.ofPairs_eq_self (hnames ▸ hkeys)]

variable {other : Value → Outcome Json}

mutual

/-- If a value of the kinds of documents has a document, that is the value, and no integer in it is too
long. -/
theorem mirrors_of_ofValue : ∀ {v : Value} {j : Json}, v.IsJson → ofValue other v = .ok j →
    j.Mirrors v ∧ v.IsDocument
  | .null, _, _, h => by
    cases h
    exact ⟨⟨rfl, rfl, trivial⟩, trivial⟩
  | .bool _, _, _, h => by
    cases h
    exact ⟨⟨rfl, rfl, trivial⟩, trivial⟩
  | .float _, _, _, h => by
    cases h
    exact ⟨⟨rfl, rfl, trivial⟩, trivial⟩
  | .text _, _, _, h => by
    cases h
    exact ⟨⟨rfl, rfl, trivial⟩, trivial⟩
  | .int n, _, _, h => by
    rw [ofValue, ofInteger] at h
    split_ifs at h with hlong
    cases h
    exact ⟨⟨rfl, rfl, not_lt.mp hlong⟩, not_lt.mp hlong⟩
  | .list vs, _, hv, h => by
    rw [ofValue] at h
    obtain ⟨js, hjs, rfl⟩ := Outcome.map_eq_ok.mp h
    rw [ofItems_eq_mapM] at hjs
    obtain ⟨hdocuments, hmirrors⟩ := (List.forall₂_and_left vs js).mp
      (Outcome.forall₂_of_mapM hjs (mirror_of_ofValue hv))
    exact ⟨mirrors_list hmirrors.flip, Value.areDocuments_iff.mpr hdocuments⟩
  | .map es, _, hv, h => by
    rw [ofValue] at h
    obtain ⟨ms, hms, rfl⟩ := Outcome.map_eq_ok.mp h
    rw [ofEntries_eq_mapM] at hms
    obtain ⟨hdocuments, hmirrors⟩ := (List.forall₂_and_left es ms).mp
      (Outcome.forall₂_of_mapM (R := fun e m => e.2.IsDocument ∧ m.1 = e.1 ∧ m.2.Mirrors e.2) hms
        fun e he m hm => by
          obtain ⟨j, hj, rfl⟩ := Outcome.map_eq_ok.mp hm
          obtain ⟨hdocument, hmirrors⟩ := mirrors_of_ofEntry hv.2 e he j hj
          exact ⟨hdocument, rfl, hmirrors⟩)
    exact ⟨mirrors_object hv.1 hmirrors.flip, hv.1, Value.holdDocuments_iff.mpr hdocuments⟩

/-- What holds of the items of a list. -/
theorem mirror_of_ofValue : ∀ {vs : List Value}, Value.AreJson vs → ∀ v ∈ vs, ∀ j,
    ofValue other v = .ok j → v.IsDocument ∧ j.Mirrors v
  | [], _ => nofun
  | _ :: _, h => List.forall_mem_cons.mpr ⟨fun _ hj => (mirrors_of_ofValue h.1 hj).symm, mirror_of_ofValue h.2⟩

/-- What holds of the values of entries. -/
theorem mirrors_of_ofEntry : ∀ {es : Entries Value}, Value.HoldJson es → ∀ e ∈ es, ∀ j,
    ofValue other e.2 = .ok j → e.2.IsDocument ∧ j.Mirrors e.2
  | [], _ => nofun
  | _ :: _, h => List.forall_mem_cons.mpr ⟨fun _ hj => (mirrors_of_ofValue h.1 hj).symm, mirrors_of_ofEntry h.2⟩

end

mutual

/-- A value of which documents lack no part has a document. -/
theorem exists_ofValue : ∀ {v : Value}, v.IsDocument → ∃ j, ofValue other v = .ok j
  | .null, _ => ⟨.null, rfl⟩
  | .bool b, _ => ⟨.bool b, rfl⟩
  | .float x, _ => ⟨.float x, rfl⟩
  | .text s, _ => ⟨.text s, rfl⟩
  | .int n, h => ⟨.int n, if_neg (not_lt.mpr h)⟩
  | .list vs, h => by
    have hitems : ∀ v ∈ vs, ∃ j, ofValue other v = .ok j := exists_ofItem h
    obtain ⟨js, hjs⟩ := Outcome.exists_mapM_ok hitems
    exact ⟨.list js, by rw [ofValue, ofItems_eq_mapM, hjs]; rfl⟩
  | .map es, h => by
    have hmembers : ∀ e ∈ es, ∃ m, (ofValue other e.2).map (e.1, ·) = .ok m := by
      intro e he
      obtain ⟨j, hj⟩ : ∃ j, ofValue other e.2 = .ok j := exists_ofEntry h.2 e he
      exact ⟨(e.1, j), by rw [hj]; rfl⟩
    obtain ⟨ms, hms⟩ := Outcome.exists_mapM_ok hmembers
    exact ⟨.object ms, by rw [ofValue, ofEntries_eq_mapM, hms]; rfl⟩

/-- Items of which documents lack no part have documents. -/
theorem exists_ofItem : ∀ {vs : List Value}, Value.AreDocuments vs → ∀ v ∈ vs,
    ∃ j, ofValue other v = .ok j
  | [], _ => nofun
  | _ :: _, h => List.forall_mem_cons.mpr ⟨exists_ofValue h.1, exists_ofItem h.2⟩

/-- Entries of which documents lack no part have members. -/
theorem exists_ofEntry : ∀ {es : Entries Value}, Value.HoldDocuments es → ∀ e ∈ es,
    ∃ j, ofValue other e.2 = .ok j
  | [], _ => nofun
  | _ :: _, h => List.forall_mem_cons.mpr ⟨exists_ofValue h.1, exists_ofEntry h.2⟩

end

/-- A value of the kinds of documents has one exactly if no integer in it is too long. -/
theorem exists_ofValue_iff {v : Value} (hv : v.IsJson) :
    (∃ j, ofValue other v = .ok j) ↔ v.IsDocument :=
  ⟨fun ⟨_, hj⟩ => (mirrors_of_ofValue hv hj).2, exists_ofValue⟩

end TwinStore.Json
