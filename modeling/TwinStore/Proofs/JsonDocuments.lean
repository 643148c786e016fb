import TwinStore.Proofs.Entries
import TwinStore.Proofs.JsonLiterals

/-!
# Documents on one line

A document on one line is read back: every part of it as it was written, except that of several
members of one name in an object the last one stays, in the place of the first.

Main definitions:

- `Json.IsShort`: the documents whose integers are not too long to be read.
- `Json.settled`: a document in which no name of an object occurs twice.
- `Json.IsSeparator`: the texts that stand for a mark between tokens.
- `Json.ReadsBack`: that the reader reads back whatever a number of steps suffices for.

Main results:

- Theorem `Json.readsBack`: what is read within a number of steps.
- Theorem `Json.parse_line`: the line of a document is read back.
-/

namespace TwinStore.Json

open Number

/-! ## Documents -/

mutual

/-- Whether no integer of a document is too long to be read. -/
def IsShort : Json → Prop
  | int n => decimalLength n.natAbs ≤ integerDigits
  | list items => AreShort items
  | object members => HaveShort members
  | _ => True

/-- Whether no integer of some documents is too long to be read. -/
def AreShort : List Json → Prop
  | [] => True
  | item :: rest => IsShort item ∧ AreShort rest

/-- Whether no integer of some members is too long to be read. -/
def HaveShort : List (String × Json) → Prop
  | [] => True
  | (_, v) :: rest => IsShort v ∧ HaveShort rest

end

mutual

/-- A document in which a name that occurs twice in an object keeps its first place and its last
value. -/
def settled : Json → Json
  | list items => list (settledItems items)
  | object members => object (Entries.ofPairs (settledMembers members))
  | atom => atom

/-- The items of a list, each settled. -/
def settledItems : List Json → List Json
  | [] => []
  | item :: rest => settled item :: settledItems rest

/-- The members of an object, each settled. -/
def settledMembers : List (String × Json) → List (String × Json)
  | [] => []
  | (k, v) :: rest => (k, settled v) :: settledMembers rest

end

theorem haveShort_iff {ms : List (String × Json)} : HaveShort ms ↔ ∀ e ∈ ms, e.2.IsShort := by
  induction ms with
  | nil => exact ⟨nofun, fun _ => trivial⟩
  | cons e ms ih => rw [HaveShort, ih, List.forall_mem_cons]

theorem settledItems_eq_map (items : List Json) : settledItems items = items.map settled := by
  induction items with
  | nil => rfl
  | cons item items ih => rw [settledItems, ih, List.map_cons]

theorem settledMembers_eq_map (ms : List (String × Json)) :
    settledMembers ms = ms.map fun e => (e.1, e.2.settled) := by
  induction ms with
  | nil => rfl
  | cons e ms ih => rw [settledMembers, ih, List.map_cons]

theorem toValues_eq_map (items : List Json) : toValues items = items.map toValue := by
  induction items with
  | nil => rfl
  | cons item items ih => rw [toValues, ih, List.map_cons]

theorem toEntries_eq_map (ms : List (String × Json)) :
    toEntries ms = ms.map fun e => (e.1, e.2.toValue) := by
  induction ms with
  | nil => rfl
  | cons e ms ih => rw [toEntries, ih, List.map_cons]

/-! ## Tokens -/

/-- Whether a text is a mark with blanks behind it. -/
def IsSeparator (mark : Char) (s : String) : Prop :=
  ∃ blanks, s.toList = mark :: blanks ∧ ∀ c ∈ blanks, isSpace c = true

/-- Blanks in front of anything else are skipped. -/
theorem skipSpace_append {blanks cs : List Char} (hblanks : ∀ c ∈ blanks, isSpace c = true)
    (hcs : ∀ c ∈ cs.head?, isSpace c = false) : skipSpace (blanks ++ cs) = cs := by
  rw [skipSpace, List.dropWhile_append_of_pos hblanks]
  cases cs with
  | nil => rfl
  | cons c cs => rw [List.dropWhile_cons_of_neg (by simp [hcs c rfl])]

/-- What begins with no blank stays as it is. -/
theorem skipSpace_eq_self {cs : List Char} (hcs : ∀ c ∈ cs.head?, isSpace c = false) :
    skipSpace cs = cs :=
  @skipSpace_append [] cs nofun hcs

/-- A number begins with a digit. -/
theorem value_digit {d : Nat} (hd : d < 10) (steps : Nat) (cs : List Char) :
    value (steps + 1) (Nat.digitChar d :: cs) = number false (Nat.digitChar d :: cs) := by
  interval_cases d <;> rfl

/-- A number below zero begins with a minus sign and a digit. -/
theorem value_minus {d : Nat} (hd : d < 10) (steps : Nat) (cs : List Char) :
    value (steps + 1) ('-' :: Nat.digitChar d :: cs) = number true (Nat.digitChar d :: cs) := by
  interval_cases d <;> rfl

/-- A number with its sign is read as one without, if that begins with a digit. -/
theorem value_signed (negative : Bool) {d : Nat} {ds : List Char} (hd : d < 10) (steps : Nat)
    (cs : List Char) :
    value (steps + 1) ((if negative then ['-'] else []) ++ (Nat.digitChar d :: ds) ++ cs) =
      number negative ((Nat.digitChar d :: ds) ++ cs) := by
  cases negative
  · exact value_digit hd steps (ds ++ cs)
  · exact value_minus hd steps (ds ++ cs)

/-! ## Atoms -/

section

variable (steps : Nat) {rest : List Char} (hrest : Ends rest)
include hrest

/-- An integer is read back. -/
theorem value_int {n : Int} (hn : decimalLength n.natAbs ≤ integerDigits) :
    value (steps + 1) ((integerText n).toList ++ rest) = .ok (.int n, rest) := by
  have hsigned : (if decide (n < 0) = true then -(n.natAbs : Int) else n.natAbs) = n := by
    simp only [decide_eq_true_eq]
    omega
  have hnumber : number (decide (n < 0)) (Nat.toDigits 10 n.natAbs ++ rest) = .ok (.int n, rest) := by
    rw [number, number?_toDigits _ _ hrest, hsigned]
    show (if decimalLength n.natAbs > integerDigits then _ else _) = _
    rw [if_neg (by omega)]
    rfl
  obtain ⟨d, ds, hdigits, hd, _⟩ := exists_toDigits n.natAbs
  rw [integerText_toList, hdigits, value_signed _ hd, ← hdigits, hnumber]

/-- A double is read back. -/
theorem value_float (x : Float) :
    value (steps + 1) ((Binary64.documentLayout.text x).toList ++ rest) = .ok (.float x, rest) := by
  rw [Binary64.Layout.text]
  cases hscaled : Binary64.scaled? x with
  | some s =>
    have hnumber := number?_shortestDigits Binary64.documentLayout hscaled hrest
    obtain ⟨d, ds, hdigits, hd⟩ := exists_write_eq Binary64.documentLayout
      (Binary64.shortestDigits s.mantissa.natAbs s.exponent).1
      (Binary64.shortestDigits s.mantissa.natAbs s.exponent).2
    have hsign : (if Binary64.isNegative x then "-" else "").toList =
        if Binary64.isNegative x then ['-'] else [] := by
      split_ifs <;> rfl
    simp only
    rw [String.toList_append, hsign, hdigits, value_signed _ hd, ← hdigits, number, hnumber]
    rfl
  | none =>
    have hx := Binary64.eq_special hscaled
    by_cases hnan : x.isNaN
    · rw [if_pos hnan] at hx
      simp only [hnan, if_true]
      conv_rhs => rw [hx]
      rfl
    · rw [if_neg hnan] at hx
      simp only [hnan]
      conv_rhs => rw [hx]
      cases Binary64.isNegative x <;> rfl

end

/-- A document that has no parts is read back. -/
theorem value_atom {j : Json} (hj : j.IsShort) (hlist : ∀ items, j ≠ .list items)
    (hobject : ∀ members, j ≠ .object members) (steps : Nat) {rest : List Char}
    (hrest : Ends rest) : value (steps + 1) ((atomText j).toList ++ rest) = .ok (j, rest) := by
  cases j with
  | null => rfl
  | bool b => cases b <;> rfl
  | int n => exact value_int steps hrest hj
  | float x => exact value_float steps hrest x
  | text s =>
    rw [atomText, quoteText_toList, List.cons_append, List.append_assoc, List.singleton_append, value,
      text?_quoteText]
    rfl
  | list items => exact absurd rfl (hlist items)
  | object members => exact absurd rfl (hobject members)

/-! ## Steps of the reader -/

/-- A list that is not empty is read item by item. -/
theorem value_list (steps : Nat) {c : Char} {cs : List Char} (hspace : isSpace c = false)
    (hc : c ≠ ']') :
    value (steps + 1) ('[' :: c :: cs) = (items steps (c :: cs)).map fun (xs, rest) =>
      (.list xs, rest) := by
  have hskip : skipSpace (c :: cs) = c :: cs := skipSpace_eq_self (by simpa using hspace)
  rw [value, hskip]
  split
  · next heq => exact absurd (List.cons.inj heq).1 hc
  · rfl

/-- The last item of a list. -/
theorem items_last {steps : Nat} {cs rest : List Char} {j : Json}
    (h : value steps cs = .ok (j, ']' :: rest)) : items (steps + 1) cs = .ok ([j], rest) := by
  rw [items, h]
  rfl

/-- An item of a list with more behind it. -/
theorem items_next {steps : Nat} {cs blanks rest : List Char} {j : Json}
    (hblanks : ∀ c ∈ blanks, isSpace c = true) (hrest : ∀ c ∈ rest.head?, isSpace c = false)
    (h : value steps cs = .ok (j, ',' :: (blanks ++ rest))) :
    items (steps + 1) cs = (items steps rest).map fun (xs, rest) => (j :: xs, rest) := by
  rw [items, h]
  have hcomma : skipSpace (',' :: (blanks ++ rest)) = ',' :: (blanks ++ rest) := rfl
  simp only [bind, Except.bind, hcomma, skipSpace_append hblanks hrest]
  cases items steps rest <;> rfl

/-- An object that is not empty is read member by member. -/
theorem value_object (steps : Nat) (cs : List Char) :
    value (steps + 1) ('\x7b' :: '"' :: cs) = (members steps ('"' :: cs)).map fun (ms, rest) =>
      (.object (Entries.ofPairs ms), rest) := rfl

section

variable {steps : Nat} {k : String} {blanks cs rest : List Char} {j : Json}
  (hblanks : ∀ c ∈ blanks, isSpace c = true) (hcs : ∀ c ∈ cs.head?, isSpace c = false)
include hblanks hcs

/-- The last member of an object. -/
theorem members_last (h : value steps cs = .ok (j, '\x7d' :: rest)) :
    members (steps + 1) ((quoteText k).toList ++ ':' :: (blanks ++ cs)) = .ok ([(k, j)], rest) := by
  rw [quoteText_toList, List.cons_append, members, List.append_assoc, List.singleton_append,
    text?_quoteText]
  have hskip : skipSpace (':' :: (blanks ++ cs)) = ':' :: (blanks ++ cs) := rfl
  simp only [found, bind, Except.bind, hskip, skipSpace_append hblanks hcs, h]
  rfl

/-- A member of an object with more behind it. -/
theorem members_next {blanks' : List Char} (hblanks' : ∀ c ∈ blanks', isSpace c = true)
    (hrest : ∀ c ∈ rest.head?, isSpace c = false)
    (h : value steps cs = .ok (j, ',' :: (blanks' ++ rest))) :
    members (steps + 1) ((quoteText k).toList ++ ':' :: (blanks ++ cs)) =
      (members steps rest).map fun (ms, rest) => ((k, j) :: ms, rest) := by
  rw [quoteText_toList, List.cons_append, members, List.append_assoc, List.singleton_append,
    text?_quoteText]
  have hskip : skipSpace (':' :: (blanks ++ cs)) = ':' :: (blanks ++ cs) := rfl
  simp only [found, bind, Except.bind, hskip, skipSpace_append hblanks hcs, h]
  have hcomma : skipSpace (',' :: (blanks' ++ rest)) = ',' :: (blanks' ++ rest) := rfl
  simp only [hcomma, skipSpace_append hblanks' hrest]
  cases members steps rest <;> rfl

end

/-! ## Lines -/

section

variable {comma colon : String}

/-- A line begins with a character that is neither a blank nor a closing bracket. -/
theorem exists_line_eq (j : Json) : ∃ c cs, (line comma colon j).toList = c :: cs ∧
    isSpace c = false ∧ c ≠ ']' := by
  have hdigit {d : Nat} (hd : d < 10) :
      isSpace (Nat.digitChar d) = false ∧ Nat.digitChar d ≠ ']' := by
    interval_cases d <;> decide
  cases j with
  | null =>
    show ∃ c cs, "null".toList = c :: cs ∧ _
    exact ⟨'n', ['u', 'l', 'l'], rfl, by decide, by decide⟩
  | bool b =>
    cases b with
    | false =>
      show ∃ c cs, "false".toList = c :: cs ∧ _
      exact ⟨'f', ['a', 'l', 's', 'e'], rfl, by decide, by decide⟩
    | true =>
      show ∃ c cs, "true".toList = c :: cs ∧ _
      exact ⟨'t', ['r', 'u', 'e'], rfl, by decide, by decide⟩
  | int n =>
    obtain ⟨d, ds, hdigits, hd, _⟩ := exists_toDigits n.natAbs
    show ∃ c cs, (integerText n).toList = c :: cs ∧ _
    rw [integerText, Number.digits, hdigits]
    split_ifs
    · rw [String.toList_append]
      exact ⟨'-', _, rfl, by decide, by decide⟩
    · exact ⟨_, ds, String.toList_ofList, hdigit hd⟩
  | float x =>
    show ∃ c cs, (Binary64.documentLayout.text x).toList = c :: cs ∧ _
    rw [Binary64.Layout.text]
    cases Binary64.scaled? x with
    | some s =>
      obtain ⟨d, ds, hdigits, hd⟩ := exists_write_eq Binary64.documentLayout
        (Binary64.shortestDigits s.mantissa.natAbs s.exponent).1
        (Binary64.shortestDigits s.mantissa.natAbs s.exponent).2
      simp only
      rw [String.toList_append, hdigits]
      split_ifs
      · exact ⟨'-', _, rfl, by decide, by decide⟩
      · exact ⟨_, ds, rfl, hdigit hd⟩
    | none =>
      simp only
      split_ifs
      · exact ⟨'N', _, rfl, by decide, by decide⟩
      · rw [String.toList_append]
        exact ⟨'-', _, rfl, by decide, by decide⟩
      · rw [String.toList_append]
        exact ⟨'I', _, rfl, by decide, by decide⟩
  | text s =>
    show ∃ c cs, (quoteText s).toList = c :: cs ∧ _
    rw [quoteText_toList]
    exact ⟨'"', _, rfl, by decide, by decide⟩
  | list items =>
    rw [line, String.toList_append, String.toList_append]
    exact ⟨'[', _, rfl, by decide, by decide⟩
  | object members =>
    rw [line, String.toList_append, String.toList_append]
    exact ⟨'\x7b', _, rfl, by decide, by decide⟩

/-- A line begins with no blank. -/
theorem head?_line (j : Json) (cs : List Char) :
    ∀ c ∈ ((line comma colon j).toList ++ cs).head?, isSpace c = false := by
  obtain ⟨c, ds, hline, hspace, _⟩ := @exists_line_eq comma colon j
  rw [hline]
  simpa using hspace

/-- What stands behind an item ends it. -/
theorem ends_cons {c : Char} (hc : c = ',' ∨ c = ']' ∨ c = '\x7d') (cs : List Char) :
    Ends (c :: cs) := by
  intro d hd
  obtain rfl := Option.some.inj hd
  exact hc

variable (comma colon) in
/-- What the reader does within a number of steps: it reads back documents, and the items of lists
and members of objects up to the closing bracket. -/
structure ReadsBack (steps : Nat) : Prop where
  value : ∀ {j : Json}, j.IsShort → (line comma colon j).toList.length ≤ steps →
    ∀ {rest : List Char}, Ends rest →
      value steps ((line comma colon j).toList ++ rest) = .ok (j.settled, rest)
  items : ∀ {item : Json} {more : List Json}, AreShort (item :: more) →
    (comma.intercalate (lineItems comma colon (item :: more))).toList.length < steps →
    ∀ rest : List Char,
      items steps ((comma.intercalate (lineItems comma colon (item :: more))).toList ++
        ']' :: rest) = .ok (settledItems (item :: more), rest)
  members : ∀ {e : String × Json} {more : List (String × Json)}, HaveShort (e :: more) →
    (comma.intercalate (lineMembers comma colon (e :: more))).toList.length < steps →
    ∀ rest : List Char,
      members steps ((comma.intercalate (lineMembers comma colon (e :: more))).toList ++
        '\x7d' :: rest) = .ok (settledMembers (e :: more), rest)

/-- The characters of a member. -/
theorem member_toList (k : String) (v : Json) :
    (quoteText k ++ colon ++ line comma colon v).toList =
      (quoteText k).toList ++ (colon.toList ++ (line comma colon v).toList) := by
  rw [String.toList_append, String.toList_append, List.append_assoc]

/-- An object's members begin with a quote. -/
theorem exists_lineMembers_eq (e : String × Json) (more : List (String × Json)) :
    ∃ cs, (comma.intercalate (lineMembers comma colon (e :: more))).toList = '"' :: cs := by
  obtain ⟨k, v⟩ := e
  cases more with
  | nil =>
    rw [lineMembers, lineMembers, String.intercalate_singleton, member_toList, quoteText_toList]
    exact ⟨_, rfl⟩
  | cons e' more =>
    obtain ⟨k', v'⟩ := e'
    rw [lineMembers, lineMembers, String.intercalate_cons_cons, String.toList_append,
      String.toList_append, member_toList, quoteText_toList]
    exact ⟨_, rfl⟩

/-- The items of a list begin with a character that is neither a blank nor a closing bracket. -/
theorem exists_lineItems_eq (item : Json) (more : List Json) :
    ∃ c cs, (comma.intercalate (lineItems comma colon (item :: more))).toList = c :: cs ∧
      isSpace c = false ∧ c ≠ ']' := by
  obtain ⟨c, cs, hline, hc⟩ := @exists_line_eq comma colon item
  cases more with
  | nil =>
    rw [lineItems, lineItems, String.intercalate_singleton]
    exact ⟨c, cs, hline, hc⟩
  | cons next more =>
    rw [lineItems, lineItems, String.intercalate_cons_cons, String.toList_append,
      String.toList_append, hline]
    exact ⟨c, _, rfl, hc⟩

namespace ReadsBack

variable {steps : Nat} (h : ReadsBack comma colon steps)
include h

/-- One step more reads a document. -/
theorem value_succ {j : Json} (hj : j.IsShort)
    (hsteps : (line comma colon j).toList.length ≤ steps + 1) {rest : List Char}
    (hrest : Ends rest) :
    Json.value (steps + 1) ((line comma colon j).toList ++ rest) = .ok (j.settled, rest) := by
  cases j with
  | list items =>
    rw [line, String.toList_append, String.toList_append] at hsteps ⊢
    cases items with
    | nil => rfl
    | cons item more =>
      obtain ⟨c, cs, hitems, hspace, hc⟩ := @exists_lineItems_eq comma colon item more
      have hread := h.items hj (by simp at hsteps ⊢; omega) rest
      have hline : "[".toList ++ (comma.intercalate (lineItems comma colon (item :: more))).toList ++
          "]".toList ++ rest = '[' :: c :: (cs ++ ']' :: rest) := by
        rw [hitems, List.append_assoc, List.append_assoc]
        rfl
      rw [hitems, List.cons_append] at hread
      rw [hline, value_list steps hspace hc, hread]
      rfl
  | object members =>
    rw [line, String.toList_append, String.toList_append] at hsteps ⊢
    cases members with
    | nil => rfl
    | cons e more =>
      obtain ⟨cs, hmembers⟩ := @exists_lineMembers_eq comma colon e more
      have hread := h.members hj (by simp at hsteps ⊢; omega) rest
      have hline : "\x7b".toList ++
          (comma.intercalate (lineMembers comma colon (e :: more))).toList ++ "\x7d".toList ++ rest =
          '\x7b' :: '"' :: (cs ++ '\x7d' :: rest) := by
        rw [hmembers, List.append_assoc, List.append_assoc]
        rfl
      rw [hmembers, List.cons_append] at hread
      rw [hline, value_object steps, hread]
      rfl
  | _ => exact value_atom hj (by simp) (by simp) steps hrest

/-- One step more reads the items of a list. -/
theorem items_succ (hcomma : IsSeparator ',' comma) {item : Json} {more : List Json}
    (hitems : AreShort (item :: more))
    (hsteps : (comma.intercalate (lineItems comma colon (item :: more))).toList.length < steps + 1)
    (rest : List Char) :
    Json.items (steps + 1) ((comma.intercalate (lineItems comma colon (item :: more))).toList ++
      ']' :: rest) = .ok (settledItems (item :: more), rest) := by
  obtain ⟨blanks, hcomma, hblanks⟩ := hcomma
  cases more with
  | nil =>
    rw [lineItems, lineItems, String.intercalate_singleton] at hsteps ⊢
    exact items_last (h.value hitems.1 (by omega) (ends_cons (Or.inr (Or.inl rfl)) rest))
  | cons next more =>
    rw [lineItems, lineItems, String.intercalate_cons_cons, ← lineItems, String.toList_append,
      String.toList_append, List.length_append, List.length_append, hcomma, List.length_cons] at hsteps
    rw [lineItems, lineItems, String.intercalate_cons_cons, ← lineItems, String.toList_append,
      String.toList_append, hcomma, List.append_assoc, List.append_assoc, List.cons_append]
    obtain ⟨c, cs, hnext, hspace, _⟩ := @exists_lineItems_eq comma colon next more
    rw [items_next hblanks (by rw [hnext]; simpa using hspace)
      (h.value hitems.1 (by omega) (ends_cons (Or.inl rfl) _)), h.items hitems.2 (by omega)]
    rfl

/-- One step more reads the members of an object. -/
theorem members_succ (hcomma : IsSeparator ',' comma) (hcolon : IsSeparator ':' colon)
    {e : String × Json} {more : List (String × Json)} (hmembers : HaveShort (e :: more))
    (hsteps : (comma.intercalate (lineMembers comma colon (e :: more))).toList.length < steps + 1)
    (rest : List Char) :
    Json.members (steps + 1) ((comma.intercalate (lineMembers comma colon (e :: more))).toList ++
      '\x7d' :: rest) = .ok (settledMembers (e :: more), rest) := by
  obtain ⟨blanks, hcomma, hblanks⟩ := hcomma
  obtain ⟨blanks', hcolon, hblanks'⟩ := hcolon
  obtain ⟨k, v⟩ := e
  have hmember : (quoteText k ++ colon ++ line comma colon v).toList =
      (quoteText k).toList ++ ':' :: (blanks' ++ (line comma colon v).toList) := by
    rw [String.toList_append, String.toList_append, List.append_assoc, hcolon, List.cons_append]
  cases more with
  | nil =>
    rw [lineMembers, lineMembers, String.intercalate_singleton, hmember] at hsteps ⊢
    rw [List.append_assoc, List.cons_append, List.append_assoc]
    refine members_last hblanks' (head?_line v _) (h.value hmembers.1 ?_ (ends_cons (Or.inr (Or.inr rfl)) rest))
    simp at hsteps
    omega
  | cons next more =>
    obtain ⟨cs, hnext⟩ := @exists_lineMembers_eq comma colon next more
    obtain ⟨k', v'⟩ := next
    rw [lineMembers, lineMembers, String.intercalate_cons_cons, ← lineMembers, String.toList_append,
      String.toList_append, hcomma, hmember] at hsteps ⊢
    rw [List.append_assoc, List.append_assoc, List.append_assoc, List.cons_append, List.cons_append,
      List.append_assoc]
    simp only [List.length_append, List.length_cons] at hsteps
    rw [members_next hblanks' (head?_line v _) hblanks (by rw [hnext]; simp [isSpace])
      (h.value hmembers.1 (by omega) (ends_cons (Or.inl rfl) _)), h.members hmembers.2 (by omega)]
    rfl

end ReadsBack

section

variable (hcomma : IsSeparator ',' comma) (hcolon : IsSeparator ':' colon)
include hcomma hcolon

/-- The reader reads back whatever the number of steps suffices for. -/
theorem readsBack (steps : Nat) : ReadsBack comma colon steps := by
  induction steps with
  | zero =>
    refine ⟨fun {j} _ hsteps _ _ => ?_, fun _ hsteps => absurd hsteps (Nat.not_lt_zero _),
      fun _ hsteps => absurd hsteps (Nat.not_lt_zero _)⟩
    obtain ⟨c, cs, hline, _⟩ := @exists_line_eq comma colon j
    rw [hline, List.length_cons] at hsteps
    omega
  | succ steps ih =>
    exact ⟨fun hj hsteps _ hrest => ih.value_succ hj hsteps hrest,
      fun hitems hsteps rest => ih.items_succ hcomma hitems hsteps rest,
      fun hmembers hsteps rest => ih.members_succ hcomma hcolon hmembers hsteps rest⟩

/-- The line of a document is read back. -/
theorem parse_line {j : Json} (hj : j.IsShort) : parse (line comma colon j) = .ok j.settled := by
  have hvalue := (readsBack hcomma hcolon ((line comma colon j).toList.length + 1)).value hj
    (Nat.le_succ _) (show Ends [] from nofun)
  have hskip := skipSpace_eq_self (@head?_line comma colon j [])
  rw [List.append_nil] at hvalue hskip
  rw [parse, hskip, hvalue]
  rfl

end

end

/-- The line of a document without blanks is read back. -/
theorem parse_compact {j : Json} (hj : j.IsShort) : parse (compact j) = .ok j.settled :=
  parse_line ⟨[], rfl, nofun⟩ ⟨[], rfl, nofun⟩ hj

end TwinStore.Json
