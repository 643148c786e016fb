import TwinStore.Json.Printer
import TwinStore.Json.Reader
import TwinStore.Proofs.Digits
import TwinStore.Proofs.ShortestDigits
import TwinStore.Proofs.Spellings

/-!
# Texts and numbers in documents

A text is written in ASCII, with escapes for everything else.  Every character is read back from its
escape, those beyond the first plane from a pair of surrogates.  An integer is written with all its
digits and read back from them.  A double is written with its shortest digits; however they are spelled,
they are read as a decimal number of the same value, and that number rounds to the double.

Main definition:

- `Json.Ends`: the texts that may follow a document.

Main results:

- Theorem `textBody?_quoteChar`: one written character is read back.
- Theorem `text?_quoteText`: a written text is read back.
- Theorem `Json.number?_toDigits`: the digits of a number are read back.
- Theorem `Json.number?_spelling`: a number is read from its spelling.
- Theorem `Json.number?_write`: the layout of digits is read as a number of the same value.
- Theorem `Json.number?_shortestDigits`: a finite double is read back.
-/

namespace TwinStore.Json

open Number

/-! ## Escapes -/

/-- A hexadecimal digit is read back. -/
theorem hexDigit?_digitChar {d : Nat} (hd : d < 16) : hexDigit? (Nat.digitChar d) = some d := by
  interval_cases d <;> decide

/-- Four hexadecimal digits are read back. -/
theorem unit?_fixedDigits {n : Nat} (hn : n < 16 ^ 4) (rest : List Char) :
    unit? (fixedDigits 16 4 n ++ rest) = some (n, rest) := by
  have hdigit (k : Nat) : hexDigit? (Nat.digitChar (k % 16)) = some (k % 16) :=
    hexDigit?_digitChar (Nat.mod_lt _ (by decide))
  simp only [fixedDigits, List.cons_append, List.nil_append, unit?, hdigit,
    Option.bind_eq_bind, Option.bind_some]
  congr 2
  norm_num at hn ⊢
  omega

/-- The characters of an escape. -/
theorem escapeUnit_toList {n : Nat} (hn : n < 16 ^ 4) :
    (escapeUnit n).toList = '\\' :: 'u' :: fixedDigits 16 4 n := by
  rw [escapeUnit, String.toList_append, hexPadded_toList (by decide) hn]
  rfl

/-! ## Single characters -/

/-- A character is no surrogate. -/
theorem toNat_cases (c : Char) : c.toNat < 0xD800 ∨ 0xE000 ≤ c.toNat ∧ c.toNat < 0x110000 := by
  rcases c.valid with h | h
  · exact Or.inl h
  · exact Or.inr ⟨h.1, h.2⟩

/-- An escape of one unit is read back. -/
theorem textBody?_escapeUnit {c : Char} (hc : c.toNat < 0x10000) (steps : Nat) (rest : List Char) :
    textBody? (steps + 1) ((escapeUnit c.toNat).toList ++ rest) =
      (textBody? steps rest).map fun found => (c :: found.1, found.2) := by
  have hsurrogate := toNat_cases c
  have hchar : unitChar c.toNat rest = (c, rest) := by
    rw [unitChar, if_neg (by omega), if_neg (by omega), Char.ofNat_toNat]
  rw [escapeUnit_toList hc, List.cons_append, List.cons_append, textBody?, if_neg (by decide),
    if_neg (by decide), if_pos rfl]
  simp only [unit?_fixedDigits hc, Option.bind_eq_bind, Option.bind_some, hchar]
  cases textBody? steps rest <;> rfl

/-- A pair of surrogates is read back. -/
theorem textBody?_surrogates {c : Char} (hc : 0x10000 ≤ c.toNat) (steps : Nat) (rest : List Char) :
    textBody? (steps + 1) ((escapeUnit (0xD800 + (c.toNat - 0x10000) / 0x400)).toList ++
        ((escapeUnit (0xDC00 + (c.toNat - 0x10000) % 0x400)).toList ++ rest)) =
      (textBody? steps rest).map fun found => (c :: found.1, found.2) := by
  have hlimit : c.toNat < 0x110000 := by
    rcases toNat_cases c with h | h <;> omega
  have hrest := Nat.div_add_mod (c.toNat - 0x10000) 0x400
  have hlow := Nat.mod_lt (c.toNat - 0x10000) (show 0 < 0x400 by decide)
  generalize hhigh : (c.toNat - 0x10000) / 0x400 = high at hrest ⊢
  generalize hlow' : (c.toNat - 0x10000) % 0x400 = low at hrest hlow ⊢
  have hfirst : 0xD800 + high < 16 ^ 4 := by norm_num; omega
  have hsecond : 0xDC00 + low < 16 ^ 4 := by norm_num; omega
  have hexpect : expect? ['\\', 'u'] ('\\' :: 'u' :: (fixedDigits 16 4 (0xDC00 + low) ++ rest)) =
      some (fixedDigits 16 4 (0xDC00 + low) ++ rest) := rfl
  have hchar : unitChar (0xD800 + high) ('\\' :: 'u' :: (fixedDigits 16 4 (0xDC00 + low) ++ rest)) =
      (c, rest) := by
    rw [unitChar, if_pos (by omega), hexpect, Option.bind_some, unit?_fixedDigits hsecond]
    simp only
    rw [if_pos (by omega),
      show 0x10000 + (0xD800 + high - 0xD800) * 0x400 + (0xDC00 + low - 0xDC00) = c.toNat by omega,
      Char.ofNat_toNat]
  rw [escapeUnit_toList hfirst, escapeUnit_toList hsecond, List.cons_append, List.cons_append,
    textBody?, if_neg (by decide), if_neg (by decide), if_pos rfl]
  simp only [unit?_fixedDigits hfirst, Option.bind_eq_bind, Option.bind_some, List.cons_append, hchar]
  cases textBody? steps rest <;> rfl

/-- A character that stands for itself is read back. -/
theorem textBody?_plain {c : Char} (hquote : c ≠ '"') (hslash : c ≠ '\\') (hc : 0x20 ≤ c.toNat)
    (steps : Nat) (rest : List Char) :
    textBody? (steps + 1) (c :: rest) =
      (textBody? steps rest).map fun found => (c :: found.1, found.2) := by
  rw [textBody?.eq_def]
  simp only [if_neg hquote, if_neg (show ¬ c.toNat < 0x20 by omega), if_neg hslash]
  cases textBody? steps rest <;> rfl

/-- A simple escape is read back. -/
theorem textBody?_escape {e c : Char} (he : e ≠ 'u') (hc : simpleEscape? e = some c) (steps : Nat)
    (rest : List Char) :
    textBody? (steps + 1) ('\\' :: e :: rest) =
      (textBody? steps rest).map fun found => (c :: found.1, found.2) := by
  rw [textBody?.eq_def]
  simp only [if_neg (show ¬ '\\' = '"' by decide), if_neg (show ¬ '\\'.toNat < 0x20 by decide),
    if_true]
  rw [hc]
  cases textBody? steps rest <;> rfl

/-- A written character is read back. -/
theorem textBody?_quoteChar (c : Char) (steps : Nat) (rest : List Char) :
    textBody? (steps + 1) ((quoteChar c).toList ++ rest) =
      (textBody? steps rest).map fun found => (c :: found.1, found.2) := by
  rw [quoteChar]
  split_ifs with hquote hslash hline hreturn htab hfeed hback
  · exact textBody?_escape (by decide) (hquote ▸ rfl) steps rest
  · exact textBody?_escape (by decide) (hslash ▸ rfl) steps rest
  · exact textBody?_escape (by decide) (hline ▸ rfl) steps rest
  · exact textBody?_escape (by decide) (hreturn ▸ rfl) steps rest
  · exact textBody?_escape (by decide) (htab ▸ rfl) steps rest
  · exact textBody?_escape (by decide) (hfeed ▸ rfl) steps rest
  · exact textBody?_escape (by decide) (hback ▸ rfl) steps rest
  simp only
  split_ifs with hplain hunit
  · rw [show c.toString.toList = [c] from String.toList_singleton c]
    exact textBody?_plain hquote hslash hplain.1 steps rest
  · exact textBody?_escapeUnit hunit steps rest
  · rw [String.toList_append, List.append_assoc]
    exact textBody?_surrogates (by omega) steps rest

/-! ## Texts -/

/-- Every character is written with at least one character. -/
theorem length_quoteChar_pos (c : Char) : 0 < (quoteChar c).toList.length := by
  by_contra hzero
  have hempty : (quoteChar c).toList = [] := List.length_eq_zero_iff.mp (by omega)
  have hread := textBody?_quoteChar c 1 ['"']
  rw [hempty] at hread
  simp [textBody?] at hread

/-- A written text is read back up to its closing quote. -/
theorem textBody?_quoted (cs : List Char) {steps : Nat} (hsteps : cs.length < steps)
    (rest : List Char) :
    textBody? steps ((cs.map quoteChar).flatMap String.toList ++ '"' :: rest) = some (cs, rest) := by
  induction cs generalizing steps with
  | nil =>
    obtain ⟨steps, rfl⟩ := Nat.exists_eq_succ_of_ne_zero (Nat.ne_of_gt hsteps)
    rfl
  | cons c cs ih =>
    rw [List.length_cons] at hsteps
    obtain ⟨steps, rfl⟩ := Nat.exists_eq_succ_of_ne_zero (n := steps) (by omega)
    rw [List.map_cons, List.flatMap_cons, List.append_assoc, Nat.succ_eq_add_one,
      textBody?_quoteChar, ih (by omega)]
    rfl

/-- The characters of a written text. -/
theorem quoteText_toList (s : String) :
    (quoteText s).toList = '"' :: ((s.toList.map quoteChar).flatMap String.toList ++ ['"']) := by
  rw [quoteText, String.toList_append, String.toList_append, String.toList_join]
  rfl

/-- A text is not longer than what is written for it. -/
theorem length_le_quoted (cs : List Char) :
    cs.length ≤ ((cs.map quoteChar).flatMap String.toList).length := by
  induction cs with
  | nil => exact Nat.zero_le _
  | cons c cs ih =>
    have hpos := length_quoteChar_pos c
    rw [List.map_cons, List.flatMap_cons, List.length_append, List.length_cons]
    omega

/-- A written text is read back. -/
theorem text?_quoteText (s : String) (rest : List Char) :
    text? ((s.toList.map quoteChar).flatMap String.toList ++ '"' :: rest) = some (s, rest) := by
  have hlength := length_le_quoted s.toList
  rw [text?, textBody?_quoted s.toList (by rw [List.length_append, List.length_cons]; omega)]
  show some (String.ofList s.toList, rest) = _
  rw [String.ofList_toList]

end TwinStore.Json

namespace TwinStore.Json

open Number

/-! ## Texts behind numbers -/

/-- Whether a text can follow a document: it is empty or goes on with the mark behind an item. -/
def Ends (rest : List Char) : Prop := ∀ c ∈ rest.head?, c = ',' ∨ c = ']' ∨ c = '\x7d'

/-- Whether a text does not go on with a digit. -/
def Undigited (rest : List Char) : Prop := ∀ c ∈ rest.head?, Text.asciiDigit? c = none

theorem Ends.undigited {rest : List Char} (h : Ends rest) : Undigited rest := by
  intro c hc
  rcases h c hc with rfl | rfl | rfl <;> decide

/-- No fraction follows a number that ends. -/
theorem Ends.fraction?_eq_none {rest : List Char} (h : Ends rest) : fraction? rest = none := by
  cases rest with
  | nil => rfl
  | cons c rest => rcases h c rfl with rfl | rfl | rfl <;> rfl

/-- No exponent follows a number that ends. -/
theorem Ends.exponent?_eq_none {rest : List Char} (h : Ends rest) : exponent? rest = none := by
  cases rest with
  | nil => rfl
  | cons c rest => rcases h c rfl with rfl | rfl | rfl <;> rfl

/-- Digits are all the digits in front of what is none. -/
theorem digitSpan_append {ds rest : List Char} (hds : AllDigits ds) (hrest : Undigited rest) :
    digitSpan (ds ++ rest) = (ds, rest) := by
  have hdigits : ∀ c ∈ ds, (Text.asciiDigit? c).isSome = true := fun c hc => hds.isSome hc
  rw [digitSpan, List.span_eq_takeWhile_dropWhile, List.takeWhile_append_of_pos hdigits,
    List.dropWhile_append_of_pos hdigits]
  cases rest with
  | nil => simp
  | cons c rest => simp [hrest c rfl]

/-! ## Parts of a number -/

/-- The digits in front of a point or an exponent are read as the integral part. -/
theorem number?_whole {negative : Bool} {whole rest : List Char} (hwhole : AllDigits whole)
    (hne : whole ≠ []) (hzero : whole.head? = some '0' → whole = ['0']) (hrest : Undigited rest) :
    number? negative (whole ++ rest) = (do
      let (places, rest) := (fraction? rest).getD ([], rest)
      let scale := exponent? rest
      let after := (scale.map (·.2)).getD rest
      let coefficient ← Decimal.digitRun? (whole ++ places)
      if places.isEmpty && scale.isNone then
        some (.int (if negative then -(coefficient : Int) else coefficient), after)
      else
        some (.float (Binary64.ofDecimal negative coefficient
          ((scale.map (·.1)).getD 0 - places.length)), after)) := by
  rw [number?, digitSpan_append hwhole hrest]
  simp only [Option.bind_eq_bind]
  split
  · next heq => exact absurd (Prod.mk.inj heq).1 hne
  · next heq =>
    obtain ⟨rfl, rfl⟩ := Prod.mk.inj heq
    obtain rfl := (List.cons.inj (hzero rfl)).2
    simp only [Option.bind_some, List.nil_append]
    cases exponent? ((fraction? rest).getD ([], rest)).2 <;> rfl
  · next heq =>
    simp only [Option.bind_some]
    cases exponent? ((fraction? rest).getD ([], rest)).2 <;> rfl

/-- Digits behind a point are read as the fraction. -/
theorem fraction?_append {places rest : List Char} (hplaces : AllDigits places)
    (hrest : Undigited rest) (hnone : fraction? rest = none) :
    (fraction? ((if places.isEmpty then [] else '.' :: places) ++ rest)).getD
      ([], (if places.isEmpty then [] else '.' :: places) ++ rest) = (places, rest) := by
  cases places with
  | nil => rw [List.isEmpty_nil, if_pos rfl, List.nil_append, hnone, Option.getD_none]
  | cons c places =>
    rw [List.isEmpty_cons, if_neg Bool.false_ne_true, List.cons_append, fraction?,
      digitSpan_append hplaces hrest]
    rfl

/-- A fraction does not begin with a digit. -/
theorem Undigited.fraction {places rest : List Char} (hrest : Undigited rest) :
    Undigited ((if places.isEmpty then [] else '.' :: places) ++ rest) := by
  cases places with
  | nil => exact hrest
  | cons d places =>
    intro c hc
    obtain rfl := Option.some.inj hc
    decide

/-- A signed number behind its mark is read as the exponent. -/
theorem exponent?_padded (place : Int) {rest : List Char} (hrest : Ends rest) :
    exponent? ('e' :: (if place < 0 then "-" else "+").toList ++
      ((padded 2 place.natAbs).toList ++ rest)) = some (place, rest) := by
  obtain ⟨d, ds, hpadded, hdigits, hrun⟩ := exists_padded 2 place.natAbs
  have hspan := digitSpan_append hdigits hrest.undigited
  rw [hpadded, List.cons_append, exponent?, if_pos (Or.inl rfl), splitSign_sign]
  simp only [hspan, hrun]
  split_ifs with hneg <;> rw [decide_eq_true_eq] at hneg
  · show some (-(place.natAbs : Int), rest) = some (place, rest)
    rw [show -(place.natAbs : Int) = place by omega]
  · show some ((place.natAbs : Int), rest) = some (place, rest)
    rw [show (place.natAbs : Int) = place by omega]

/-! ## Integers and doubles -/

/-- The digits of a number are read back as an integer. -/
theorem number?_toDigits (negative : Bool) (n : Nat) {rest : List Char} (hrest : Ends rest) :
    number? negative (Nat.toDigits 10 n ++ rest) =
      some (.int (if negative then -(n : Int) else n), rest) := by
  rw [number?_whole (AllDigits.toDigits n) (List.ne_nil_of_length_pos Nat.length_toDigits_pos)
    toDigits_eq_of_head hrest.undigited, hrest.fraction?_eq_none]
  simp only [Option.getD_none, hrest.exponent?_eq_none, List.append_nil, digitRun?_toDigits]
  rfl

/-- A number is read from its spelling, if that has a point or a power of ten. -/
theorem number?_spelling {s : Spelling} {c : Nat} (hs : s.Shows c)
    (hmarked : s.places ≠ [] ∨ s.shift.isSome) (negative : Bool) {rest : List Char}
    (hrest : Ends rest) :
    number? negative (s.chars ++ rest) =
      some (.float (Binary64.ofDecimal negative c s.exponent), rest) := by
  rw [Spelling.chars, Spelling.fraction, Spelling.exponent, Spelling.mark, List.append_assoc,
    List.append_assoc]
  cases hshift : s.shift with
  | none =>
    have hplaces : s.places.isEmpty = false := by
      rw [hshift] at hmarked
      exact List.isEmpty_eq_false_iff.mpr (hmarked.resolve_right Bool.false_ne_true)
    simp only [List.nil_append]
    rw [number?_whole hs.whole hs.isSome hs.zero hrest.undigited.fraction,
      fraction?_append hs.places hrest.undigited hrest.fraction?_eq_none]
    simp only [hrest.exponent?_eq_none, hs.run, Option.bind_eq_bind,
      Option.bind_some, Option.map_none, Option.getD_none, hplaces, Bool.false_and,
      Bool.false_eq_true, if_false]
  | some place =>
    have hmark : Undigited ('e' :: (if place < 0 then "-" else "+").toList ++
        ((padded 2 place.natAbs).toList ++ rest)) := by
      intro c hc
      obtain rfl := Option.some.inj hc
      decide
    have hexponent := exponent?_padded place hrest
    simp only [List.cons_append, List.append_assoc] at hmark hexponent ⊢
    rw [number?_whole hs.whole hs.isSome hs.zero hmark.fraction, fraction?_append hs.places hmark rfl]
    simp only [hexponent, hs.run, Option.bind_eq_bind, Option.bind_some, Option.map_some,
      Option.getD_some, Option.isNone_some, Bool.and_false, Bool.false_eq_true, if_false]

/-- The shortest digits of a finite double, in a layout, are read back as the double. -/
theorem number?_shortestDigits (layout : Binary64.Layout) {x : Float} {s : Binary64.Scaled}
    (h : Binary64.scaled? x = some s) {rest : List Char} (hrest : Ends rest) :
    number? (Binary64.isNegative x) ((layout.write
        (Binary64.shortestDigits s.mantissa.natAbs s.exponent).1
        (Binary64.shortestDigits s.mantissa.natAbs s.exponent).2).toList ++ rest) =
      some (.float x, rest) := by
  obtain ⟨spelling, c, hchars, hshows, hmarked, -, hvalue⟩ := exists_spelling layout
    (Binary64.shortestDigits s.mantissa.natAbs s.exponent).1
    (Binary64.shortestDigits s.mantissa.natAbs s.exponent).2
  rw [hchars, number?_spelling hshows hmarked _ hrest]
  congr 3
  conv_rhs => rw [Binary64.eq_encode h]
  by_cases hzero : s.mantissa = 0
  · have hdigits : Binary64.shortestDigits s.mantissa.natAbs s.exponent = (0, 0) := by
      rw [hzero, Int.natAbs_zero, Binary64.shortestDigits, if_pos rfl]
    rw [hdigits] at hvalue
    rw [Binary64.ofDecimal_congr _ hvalue, hzero, Binary64.ofDecimal, if_pos rfl, Binary64.ofRatio,
      if_pos rfl]
    rfl
  · obtain ⟨hgrid, he⟩ := Binary64.onGrid_of_scaled? h hzero
    refine Binary64.ofDecimal_of_roundsTo _ hgrid he ?_
    rw [hvalue]
    exact Binary64.shortestDigits_roundsTo hgrid

end TwinStore.Json
