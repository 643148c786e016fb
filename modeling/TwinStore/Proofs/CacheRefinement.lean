import TwinStore.Proofs.CacheCalls

/-!
# The cache as sets of records

Where the cache answers, a run of plain calls is a run of set operations: the sets of members list the
sets of records that the operations leave, and the answers are theirs.  Numbers with too many digits
are not plain, as they have no member, and neither is a sum of dates for an attribute of another type,
as it comes back as another value.

Main definitions:

- `performAll`: calls one after another.
- `AllMean`: what calls one after another mean.

Main results:

- Theorem `performAll_leads`, `calls_refine_sets`: all calls of a run do what they mean.
- Theorem `long_numbers_and_dated_labels_are_lost`: what is not plain is lost.
-/

namespace TwinStore.Cache

open Filter Action

/-! ## Runs -/

/-- Calls one after another, each in its own scope; the outcome of one does not stop the others. -/
def performAll (d : Deployment) : List (Option CorrelationRef × Call) → Action (List (Outcome Reply))
  | [] => return []
  | (given, call) :: rest => do
    let reply ← attempt (call.perform d given)
    return reply :: (← performAll d rest)

/-- What calls one after another mean for a family of sets of records. -/
inductive AllMean (r : Registry) : Family → List Call → List (Outcome Reply) → Family → Prop
  | nil (F : Family) : AllMean r F [] [] F
  | cons {F F₁ F' : Family} {call : Call} {calls : List Call} {reply : Outcome Reply}
      {replies : List (Outcome Reply)} (hcall : call.Means r F reply F₁)
      (hcalls : AllMean r F₁ calls replies F') : AllMean r F (call :: calls) (reply :: replies) F'

variable {d : Deployment} {sets : Entries (List String)} {F : Family}

/-- Plain calls do what they mean, from any sets that represent a family. -/
theorem performAll_leads (hr : d.registry.NamesApart) {calls : List (Option CorrelationRef × Call)}
    (hplain : ∀ c ∈ calls, c.2.IsPlain d.registry) (h : Represents d sets F)
    (primary : Primary.Database × List (Option Bool)) :
    ∃ replies sets' F', (performAll d calls).Leads (Stores.Stands d sets primary) (.ok replies)
        (Stores.Stands d sets' primary) ∧
      AllMean d.registry F (calls.map (·.2)) replies F' ∧ Represents d sets' F' ∧
      ∀ key, (∀ c ∈ calls, key ≠ setKey d c.2.model) → Entries.get? sets' key = Entries.get? sets key := by
  induction calls generalizing sets F with
  | nil => exact ⟨[], sets, F, Leads.pure _ _, .nil F, h, fun _ _ => rfl⟩
  | cons c calls ih =>
    obtain ⟨hfirst, hrest⟩ := List.forall_mem_cons.mp hplain
    obtain ⟨reply, sets₁, F₁, hleads, hmeans, h₁, hothers⟩ := Call.refines hr h hfirst c.1 primary
    obtain ⟨replies, sets', F', hleads', hmeans', h', hothers'⟩ := ih hrest h₁
    refine ⟨reply :: replies, sets', F', Leads.bind hleads.attempt (Leads.bind hleads' (Leads.pure _ _)),
      .cons hmeans hmeans', h', fun key hkey => ?_⟩
    obtain ⟨hcall, hcalls⟩ := List.forall_mem_cons.mp hkey
    exact (hothers' key hcalls).trans (hothers key hcall)

/-- Where the cache answers and no attribute is named like a model, all plain calls of a run do what
they mean: their answers are those of the operations on the sets of records, the sets afterwards
represent the family that these leave, and the sets of models that no call is about do not change. -/
theorem calls_refine_sets (hr : d.registry.NamesApart)
    {calls : List (Option CorrelationRef × Call)} (hplain : ∀ c ∈ calls, c.2.IsPlain d.registry)
    {s : Stores} (hs : s.IsUp d) (h : Represents d s.server.sets F) :
    ∃ replies s' F', runFrom (performAll d calls) s = (.ok replies, s') ∧
      AllMean d.registry F (calls.map (·.2)) replies F' ∧ Represents d s'.server.sets F' ∧
      s'.IsUp d ∧ s'.primary = s.primary ∧
      ∀ key, (∀ c ∈ calls, key ≠ setKey d c.2.model) →
        s'.server.members key = s.server.members key := by
  obtain ⟨replies, sets', F', hleads, hmeans, h', hothers⟩ := performAll_leads hr hplain h s.primary
  obtain ⟨s', hrun, hs'⟩ := hleads s ⟨⟨hs.answers, hs.reachable⟩, rfl, rfl⟩
  have hsets : s'.server.sets = sets' := hs'.sets_eq
  refine ⟨replies, s', F', hrun, hmeans, hsets ▸ h', ⟨hs'.isUp.answers, hs'.isUp.reachable⟩,
    hs'.primary_eq, fun key hkey => ?_⟩
  rw [Server.members, Server.members, hsets, hothers key hkey]

/-! ## A run with one item -/

/-- A model with a price. -/
def pricedItem : Model :=
  { name := "item"
    attributes := [⟨"id", .int, true, true, false⟩, { name := "price", type := .decimal }] }

/-- A model with a label, of which items may hold records. -/
def shelf : Model :=
  { name := "shelf"
    attributes := [⟨"id", .int, true, true, false⟩, { name := "label", type := .str }] }

/-- The registry of both models. -/
def shelves : Deployment := ⟨(Registry.register {} [pricedItem, shelf]).1, "", true, none⟩

/-- An item with a price of one and a half, once written with a digit more and once with a shelf,
which is updated and found, while another one is deleted. -/
def shelfCalls : List (Option CorrelationRef × Call) :=
  [(none, .create "item" [[("id", .int 1), ("price", .decimal (.finite false 150 (-2)))],
      [("price", .decimal (.finite false 15 (-1))), ("id", .int 1), ("shelf", .list [])]]),
    (none, .update "item" [("price", .null)] (some [("id", .int 1)])),
    (none, .delete "item" (some [("id", .int 2)])),
    (none, .find "item" none)]

theorem namesApart_shelves : shelves.registry.NamesApart := by
  intro name m hm a ha
  have hmodel : (name, m) ∈ [("item", pricedItem), ("shelf", shelf)] := Entries.mem_of_get? hm
  simp only [List.mem_cons, List.not_mem_nil, or_false, Prod.mk.injEq] at hmodel
  rcases hmodel with ⟨-, rfl⟩ | ⟨-, rfl⟩
  · simp only [pricedItem, List.mem_cons, List.not_mem_nil, or_false] at ha
    rcases ha with rfl | rfl
    · decide
    · decide
  · simp only [shelf, List.mem_cons, List.not_mem_nil, or_false] at ha
    rcases ha with rfl | rfl
    · decide
    · decide

/-- Both ways to write one and a half come back. -/
theorem retains_half {d : Number.Decimal} (hvalue : d.value? = some (3 / 2))
    (hread : Number.Decimal.parse? (Value.float d.toFloat).display = some (.finite false 15 (-1))) :
    AttributeType.decimal.Retains (.decimal d) :=
  .inr ⟨.decimal hvalue, .decimal (isKept_half hvalue hread)⟩

/-- A filter for items with some key asks plainly. -/
theorem asksPlainly_item (n : Int) :
    AsksPlainly (shelves.registry.attributeTypes "item") (filterValue (some [("id", .int n)])) := by
  refine asksPlainly_equals (by decide) (fun type htype => ?_) rfl
  obtain rfl : AttributeType.int = type := Option.some.inj htype
  exact .inr (.int n)

theorem isPlain_shelfCalls : ∀ c ∈ shelfCalls, c.2.IsPlain shelves.registry := by
  have hlong : (Number.Decimal.finite false 150 (-2)).value? = some (3 / 2) := by
    rw [Number.Decimal.value?]
    norm_num
  have hshort : (Number.Decimal.finite false 15 (-1)).value? = some (3 / 2) := by
    rw [Number.Decimal.value?]
    norm_num
  have hone : Number.decimalLength (1 : ℤ).natAbs ≤ Json.integerDigits := by decide
  simp only [shelfCalls, List.forall_mem_cons, List.not_mem_nil, false_implies, implies_true, and_true]
  refine ⟨fun _ => ?_, ⟨asksPlainly_item 1, ?_⟩, asksPlainly_item 2, asksPlainly_null _⟩
  · simp only [List.forall_mem_cons, List.not_mem_nil, false_implies, implies_true, and_true]
    refine ⟨⟨by decide, .inr ⟨.int, rfl, .inr ⟨.int 1, .int hone⟩⟩,
        .inr ⟨.decimal, rfl, retains_half hlong (by decide +kernel)⟩⟩,
      ⟨by decide, .inr ⟨.decimal, rfl, retains_half hshort (by decide +kernel)⟩,
        .inr ⟨.int, rfl, .inr ⟨.int 1, .int hone⟩⟩, .inl rfl⟩⟩
  · intro e he type _
    obtain rfl := List.mem_singleton.mp he
    exact .inl (.inl rfl)

theorem shelf_calls_refine_sets :
    shelves.registry.NamesApart ∧ (∀ c ∈ shelfCalls, c.2.IsPlain shelves.registry) ∧
      ({} : Stores).IsUp shelves ∧ Represents shelves [] (fun _ => ∅) ∧
      ∃ replies s' F', runFrom (performAll shelves shelfCalls) {} = (.ok replies, s') ∧
        AllMean shelves.registry (fun _ => ∅) (shelfCalls.map (·.2)) replies F' ∧
        Represents shelves s'.server.sets F' ∧ s'.IsUp shelves ∧ s'.primary = ({} : Stores).primary ∧
        ∀ key, (∀ c ∈ shelfCalls, key ≠ setKey shelves c.2.model) →
          s'.server.members key = ({} : Stores).server.members key :=
  have hup : ({} : Stores).IsUp shelves := ⟨fun _ => rfl, .inr (.inl rfl)⟩
  ⟨namesApart_shelves, isPlain_shelfCalls, hup, represents_empty shelves,
    calls_refine_sets namesApart_shelves isPlain_shelfCalls hup (represents_empty shelves)⟩

/-! ## Values that are lost -/

/-- A record cannot be created if its only field has no document. -/
theorem create_fails {model key : String} (hm : d.registry.hasModel model = true)
    (hkey : d.registry.hasModel key = false) {v : Value} {fault : Fault}
    (hfault : document v = .error fault) (hkind : ∀ detail, fault ≠ .wrongKind detail)
    (given : Option CorrelationRef) (P : Stores → Prop) :
    ((Call.create model [[(key, v)]]).perform d given).Leads P (.error fault) P := by
  have hown : d.registry.ownFields [(key, v)] = [(key, v)] := by
    refine List.filter_eq_self.mpr fun e he => ?_
    rw [List.mem_singleton.mp he, Registry.contains_modelNames, hkey]
    rfl
  have hmembers : membersOf d.registry.modelNames (.list [.map [(key, v)]]) = .error fault := by
    rw [membersOf, Value.items, Outcome.ok_bind, Outcome.mapM_cons]
    show encode (d.registry.ownFields [(key, v)]) >>= _ = _
    rw [hown, encode_singleton_of_error hfault, Outcome.error_bind]
  exact Leads.bind_error (create_failed_leads hm given rfl hmembers hkind P)

/-- Powers of ten with too many digits have no document. -/
theorem document_pow {k : ℕ} (hk : Json.integerDigits ≤ k) :
    document (.int ((10 ^ k : ℕ) : ℤ)) = .error (.badValue "") ∧
      (∃ n : ℤ, (Number.Decimal.finite false 1 k).value? = some (n : ℚ)) ∧
      document (.decimal (.finite false 1 k)) = .error (.badValue "") :=
  ⟨ofInteger_pow hk, decimalDocument_pow hk⟩

/-- An integer with too many digits. -/
def longInteger : ℤ := (10 ^ 4300 : ℕ)

/-- A decimal number with too many digits. -/
def longDecimal : Number.Decimal := .finite false 1 (4300 : ℕ)

theorem long_numbers : document (.int longInteger) = .error (.badValue "") ∧
      (∃ n : ℤ, longDecimal.value? = some (n : ℚ)) ∧
      document (.decimal longDecimal) = .error (.badValue "") := by
  rw [longInteger, longDecimal]
  exact @document_pow 4300 (by decide)

/-- A creation means an answer. -/
theorem Call.Means.create_answers {r : Registry} {F F' : Family} {model : String}
    {records : List Record} {reply : Outcome Reply}
    (h : (Call.create model records).Means r F reply F') : ∃ answer, reply = .ok answer := by
  cases h <;> exact ⟨_, rfl⟩

/-- A creation that fails does not do what it means. -/
theorem create_misses {key : String} {v : Value} (hkey : shelves.registry.hasModel key = false)
    (h : document v = .error (.badValue "")) (F' : Family) :
    ¬ (Call.create "item" [[(key, v)]]).Means shelves.registry (fun _ => ∅)
      (runFrom ((Call.create "item" [[(key, v)]]).perform shelves none) {}).1 F' := by
  intro hmeans
  obtain ⟨answer, hanswer⟩ := hmeans.create_answers
  obtain ⟨s', hrun, _⟩ := @create_fails shelves "item" key rfl hkey v _ h nofun none
    (fun _ => True) {} trivial
  rw [hrun] at hanswer
  cases hanswer

/-- A label that is the day after a day. -/
def datedLabel : Entries Value :=
  [("label", .map [("$sumDate",
    .map [("date", .date ⟨2024, 1, 1⟩), ("number", .int 1), ("unit", .text "day")])])]

/-- A shelf whose label becomes a date. -/
def datedCalls : List (Option CorrelationRef × Call) :=
  [(none, .create "shelf" [[("id", .int 1), ("label", .text "a")]]),
    (none, .update "shelf" datedLabel none), (none, .find "shelf" none)]

/-- The label of a record, if it is a text. -/
def labelOf (x : Record) : Option String :=
  match x.field "label" with
  | .text s => some s
  | _ => none

/-- The labels that the last of three calls found. -/
def labelsFound : Outcome (List (Outcome Reply)) → Option (List (Option String))
  | .ok [_, _, .ok (.found (some records))] => some (records.map labelOf)
  | _ => none

theorem labelsFound_datedCalls : labelsFound (runFrom (performAll shelves datedCalls) {}).1 =
    some [some "2024-01-02T00:00:00"] := by
  decide +kernel

/-- The update makes a point of time of the label. -/
theorem revise_datedLabel :
    revise datedLabel [("id", .int 1), ("label", .text "a")] (shelves.registry.attributeTypes "shelf") =
      .ok [("id", .int 1), ("label", .instant ⟨⟨2024, 1, 2⟩, 0, 0, 0, 0, none⟩)] := by
  have hmoved : ({ days := .whole 1 } : Shift).apply ⟨⟨2024, 1, 1⟩, 0, 0, 0, 0, none⟩ =
      .ok ⟨⟨2024, 1, 2⟩, 0, 0, 0, 0, none⟩ := Outcome.eq_ok_of_toOption (by decide +kernel)
  have hsum : sumDate "label" (.date ⟨2024, 1, 1⟩) (.int 1) .day =
      .ok (.instant ⟨⟨2024, 1, 2⟩, 0, 0, 0, 0, none⟩) := by
    have hstart : coerceFor "label" (some .datetime) (.date ⟨2024, 1, 1⟩) =
        .ok (.instant ⟨⟨2024, 1, 1⟩, 0, 0, 0, 0, none⟩) := rfl
    rw [sumDate, if_neg (by decide), hstart, Outcome.ok_bind, addUnits_eq_ok.mpr ⟨_, _, rfl, hmoved, rfl⟩]
    rfl
  have hread : Directive.read "label" (.map [("date", .date ⟨2024, 1, 1⟩), ("number", .int 1),
      ("unit", .text "day")]) = .ok ⟨.date ⟨2024, 1, 1⟩, .int 1, .day⟩ := by
    have hunit : DateUnit.parse (.text "day") = .ok .day := Outcome.eq_ok_of_toOption (by decide +kernel)
    show (do return (⟨.date ⟨2024, 1, 1⟩, .int 1, ← DateUnit.parse (.text "day")⟩ : Directive) :
      Except UpdateError Directive) = _
    rw [hunit]
    rfl
  have hvalue : newValue [("id", .int 1), ("label", .text "a")] "label" (.map [("$sumDate",
      .map [("date", .date ⟨2024, 1, 1⟩), ("number", .int 1), ("unit", .text "day")])]) =
      sumDate "label" (.date ⟨2024, 1, 1⟩) (.int 1) .day :=
    newValue_eq_sumDate (d := ⟨.date ⟨2024, 1, 1⟩, .int 1, .day⟩) rfl hread rfl rfl
  rw [revise, datedLabel, List.foldlM_cons]
  dsimp only
  rw [hvalue, hsum]
  rfl

/-- Numbers with too many digits cannot be created, and a text that becomes a date is found as a text
again. -/
theorem long_numbers_and_dated_labels_are_lost :
    (shelves.registry.NamesApart ∧ ({} : Stores).IsUp shelves ∧
      Represents shelves [] fun _ => ∅) ∧
    (∀ F', ¬ (Call.create "item" [[("id", .int longInteger)]]).Means shelves.registry (fun _ => ∅)
      (runFrom ((Call.create "item" [[("id", .int longInteger)]]).perform shelves none) {}).1 F') ∧
    ((∃ n : ℤ, longDecimal.value? = some (n : ℚ)) ∧
      ∀ F', ¬ (Call.create "item" [[("price", .decimal longDecimal)]]).Means shelves.registry
        (fun _ => ∅) (runFrom ((Call.create "item" [[("price", .decimal longDecimal)]]).perform
          shelves none) {}).1 F') ∧
    ∃ image replies records, revise datedLabel [("id", .int 1), ("label", .text "a")]
        (shelves.registry.attributeTypes "shelf") = .ok image ∧
      (runFrom (performAll shelves datedCalls) {}).1 = .ok replies ∧
      replies.getLast? = some (.ok (.found (some records))) ∧ ∀ x ∈ records, ¬ x.Agrees image := by
  obtain ⟨hinteger, hintegral, hdecimal⟩ := long_numbers
  refine ⟨⟨namesApart_shelves, ⟨fun _ => rfl, .inr (.inl rfl)⟩, represents_empty shelves⟩,
    create_misses rfl hinteger, ⟨hintegral, create_misses rfl hdecimal⟩, ?_⟩
  have hlabels := labelsFound_datedCalls
  unfold labelsFound at hlabels
  split at hlabels
  · next first second records heq =>
    refine ⟨_, _, records, revise_datedLabel, heq, rfl, fun x hx hagrees => ?_⟩
    have hlabel : labelOf x ∈ [some "2024-01-02T00:00:00"] :=
      Option.some.inj hlabels ▸ List.mem_map_of_mem hx
    have hfield : (x.field "label").Agrees (.instant ⟨⟨2024, 1, 2⟩, 0, 0, 0, 0, none⟩) :=
      hagrees.fields "label"
    have hnone : labelOf x = none := by
      rw [labelOf]
      generalize x.field "label" = v at hfield
      cases hfield
      rfl
    rw [hnone, List.mem_singleton] at hlabel
    cases hlabel
  · cases hlabels

end TwinStore.Cache
