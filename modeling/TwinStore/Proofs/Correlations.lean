import Mathlib.Data.List.Basic
import TwinStore.Trace.Program

/-!
# The history of a trace

What happens to correlations is a list of moments: a scope is entered or left, a message is added, the
active correlation is looked at.  The sink is told the moments one by one, and the state of every
correlation can be read off them.

Main definitions:

- `Moment`: one thing that happens, with `Moment.call?`, what the sink is told of it, and
  `Moment.sighting?`, what a program shows of it.
- `isFinished`, `borrowings`: whether a correlation was finished, and how often it was borrowed.
- `Records`: a trace as the moments so far make it.

Main results:

- Theorem `Records.opened`, `Records.borrowed`, `Records.given`: entering a scope records one moment.
- Theorem `Records.closed`: so does leaving the scope that opened its correlation.
-/

namespace TwinStore.Trace

/-! ## Telling the sink -/

section

variable (t : Trace) (call : SinkCall)

/-- Whatever the sink answers, it was told, and nothing but reports is added. -/
theorem tell_eq : ∃ reports, t.tell call = { t with calls := t.calls ++ [call], reports } := by
  unfold tell
  split
  · exact ⟨_, rfl⟩
  · exact ⟨_, rfl⟩

@[simp]
theorem calls_tell : (t.tell call).calls = t.calls ++ [call] := by
  obtain ⟨reports, h⟩ := t.tell_eq call
  rw [h]

@[simp]
theorem correlations_tell : (t.tell call).correlations = t.correlations := by
  obtain ⟨reports, h⟩ := t.tell_eq call
  rw [h]

@[simp]
theorem active_tell : (t.tell call).active = t.active := by
  obtain ⟨reports, h⟩ := t.tell_eq call
  rw [h]

@[simp]
theorem idStem_tell : (t.tell call).idStem = t.idStem := by
  obtain ⟨reports, h⟩ := t.tell_eq call
  rw [h]

@[simp]
theorem outageAt?_tell : (t.tell call).outageAt? = t.outageAt? := by
  obtain ⟨reports, h⟩ := t.tell_eq call
  rw [h]
  rfl

@[simp]
theorem correlation_tell (ref : CorrelationRef) : (t.tell call).correlation ref = t.correlation ref := by
  rw [correlation, correlations_tell, correlation]

end

/-! ## Correlations -/

variable {t : Trace} {ref : CorrelationRef}

/-- The identifier of the correlation that is opened next: its name, unless the sink fails. -/
def nextId (t : Trace) : String :=
  if (t.outage? .start).isSome then untracedId else t.nameOf t.correlations.length

theorem correlation_modify (change : Correlation → Correlation) {other : CorrelationRef}
    (h : other < t.correlations.length) : (t.modify ref change).correlation other =
      if ref = other then change (t.correlation other) else t.correlation other := by
  simp only [correlation, modify, List.getD_eq_getElem?_getD, List.getElem?_modify]
  rw [List.getElem?_eq_getElem h]
  split_ifs <;> simp_all

/-- A scope without a given or an active correlation opens one. -/
theorem enter_of_idle (h : t.active = none) : ∃ opened : Trace,
    t.enter none = (opened, t.correlations.length, .owned) ∧
      opened.calls = t.calls ++ [.start (t.nameOf t.correlations.length)] ∧
      opened.correlations = t.correlations ++ [⟨t.nextId, false, 0⟩] ∧
      opened.active = some t.correlations.length ∧ opened.idStem = t.idStem ∧
      opened.outageAt? = t.outageAt? := by
  refine ⟨{ t.opened.1 with active := some t.opened.2 }, ?_, calls_tell .., ?_, rfl, idStem_tell ..,
    outageAt?_tell ..⟩
  · simp only [enter, h]
    rfl
  · simp only [Trace.opened, correlations_tell]
    rfl

/-- A scope without a given correlation borrows the active one. -/
theorem enter_of_active (h : t.active = some ref) : t.enter none =
    ((t.modify ref fun c => { c with borrowed := c.borrowed + 1 }).tell
      (.markUsed (t.correlation ref).id), ref, .borrowed) := by
  simp only [enter, h]

/-- A correlation that is not finished yet is finished by the scope that opened it. -/
theorem leave_owned (h : (t.correlation ref).finished = false) : t.leave ref .owned =
    (({ t with active := none }).modify ref fun c => { c with finished := true }).tell
      (.finish (t.correlation ref).id) := by
  have hopen : (({ t with active := none } : Trace).correlation ref).finished = false := h
  rw [leave, finish, hopen]
  rfl

/-- Whether the correlations of a trace keep their identifiers in another trace. -/
def KeepsIds (t t' : Trace) : Prop :=
  ∀ ref < t.correlations.length, (t'.correlation ref).id = (t.correlation ref).id

/-! ## Moments -/

/-- One thing that happens in a run over scopes: a scope is entered, with the correlation that it uses,
how it came to it, and whether that is the correlation of the scope around it; a message is added to a
correlation; the active correlation is looked at; a scope is left, by failure or not; a failure is
caught. -/
inductive Moment where
  | entered (ref : CorrelationRef) (hold : Hold) (same : Bool)
  | noted (ref : CorrelationRef) (event : Event)
  | observed (active : Option CorrelationRef)
  | left (ref : CorrelationRef) (hold : Hold) (failed : Bool)
  | caught

namespace Moment

/-- Whether a correlation is opened. -/
def opens (ref : CorrelationRef) : Moment → Bool
  | entered other .owned _ => other == ref
  | _ => false

/-- Whether a correlation is borrowed because it is active. -/
def borrows (ref : CorrelationRef) : Moment → Bool
  | entered other .borrowed _ => other == ref
  | _ => false

/-- Whether a correlation is finished by the scope that opened it. -/
def closes (ref : CorrelationRef) : Moment → Bool
  | left other .owned _ => other == ref
  | _ => false

/-- The correlation that a moment is about. -/
def ref? : Moment → Option CorrelationRef
  | entered ref _ _ | noted ref _ | left ref _ _ => some ref
  | observed active => active
  | caught => none

/-- What the sink is told of a moment, given the identifiers of the correlations and the names that the
sink has for them. -/
def call? (id name : CorrelationRef → String) : Moment → Option SinkCall
  | entered ref .owned _ => some (.start (name ref))
  | entered ref .borrowed _ => some (.markUsed (id ref))
  | noted ref event => some (.annotate (id ref) event)
  | left ref .owned _ => some (.finish (id ref))
  | _ => none

theorem ref?_of_borrows {ref : CorrelationRef} : ∀ {m : Moment}, m.borrows ref = true → m.ref? = some ref
  | entered _ .borrowed _, h => congrArg some (beq_iff_eq.mp h)

theorem ref?_of_closes {ref : CorrelationRef} : ∀ {m : Moment}, m.closes ref = true → m.ref? = some ref
  | left _ .owned _, h => congrArg some (beq_iff_eq.mp h)

end Moment

/-- Whether a correlation was finished. -/
def isFinished (moments : List Moment) (ref : CorrelationRef) : Bool := moments.any (·.closes ref)

/-- The number of times that a correlation was borrowed because it was active. -/
def borrowings (moments : List Moment) (ref : CorrelationRef) : Nat := moments.countP (·.borrows ref)

@[simp]
theorem isFinished_append (ms ms' : List Moment) (ref : CorrelationRef) :
    isFinished (ms ++ ms') ref = (isFinished ms ref || isFinished ms' ref) := List.any_append

@[simp]
theorem borrowings_append (ms ms' : List Moment) (ref : CorrelationRef) :
    borrowings (ms ++ ms') ref = borrowings ms ref + borrowings ms' ref := List.countP_append

@[simp]
theorem isFinished_singleton (m : Moment) (ref : CorrelationRef) : isFinished [m] ref = m.closes ref := by
  simp [isFinished]

@[simp]
theorem borrowings_singleton (m : Moment) (ref : CorrelationRef) :
    borrowings [m] ref = if m.borrows ref then 1 else 0 := by
  simp [borrowings, List.countP_cons]

/-- What a program shows of a moment, given the identifiers and the moments before. -/
def Moment.sighting? (id : CorrelationRef → String) (before : List Moment) : Moment → Option Sighting
  | entered ref _ same => some (.entered (id ref) same)
  | observed active => some (.current (active.map id))
  | left ref hold failed =>
    if failed then none
    else some (.left (id ref) (isFinished (before ++ [.left ref hold failed]) ref)
      (borrowings before ref))
  | caught => some .caught
  | noted _ _ => none

/-- What a program shows of moments that follow others. -/
def sightings (id : CorrelationRef → String) : (before moments : List Moment) → List Sighting
  | _, [] => []
  | before, m :: rest => (m.sighting? id before).toList ++ sightings id (before ++ [m]) rest

theorem sightings_snoc (id : CorrelationRef → String) (before ms : List Moment) (m : Moment) :
    sightings id before (ms ++ [m]) =
      sightings id before ms ++ (m.sighting? id (before ++ ms)).toList := by
  induction ms generalizing before with
  | nil => simp [sightings]
  | cons first rest ih => simp [sightings, ih, List.append_assoc]

/-! ## Identifiers -/

section

variable {id id' name : CorrelationRef → String} {n : Nat} {ms : List Moment}

/-- What the sink is told depends on the identifiers of the correlations that a moment is about. -/
theorem Moment.call?_congr {m : Moment} (h : ∀ ref ∈ m.ref?, id ref = id' ref) :
    m.call? id name = m.call? id' name := by
  cases m with
  | entered ref hold _ => cases hold <;> simp_all [call?, ref?]
  | left ref hold _ => cases hold <;> simp_all [call?, ref?]
  | _ => simp_all [call?, ref?]

theorem Moment.sighting?_congr {m : Moment} {before : List Moment}
    (h : ∀ ref ∈ m.ref?, id ref = id' ref) : m.sighting? id before = m.sighting? id' before := by
  cases m with
  | observed active => cases active <;> simp_all [sighting?, ref?]
  | _ => simp_all [sighting?, ref?]

theorem calls_congr (h : ∀ m ∈ ms, ∀ ref ∈ m.ref?, id ref = id' ref) :
    ms.filterMap (Moment.call? id name) = ms.filterMap (Moment.call? id' name) :=
  List.filterMap_congr fun m hm => Moment.call?_congr (h m hm)

theorem sightings_congr {before : List Moment} (h : ∀ m ∈ ms, ∀ ref ∈ m.ref?, id ref = id' ref) :
    sightings id before ms = sightings id' before ms := by
  induction ms generalizing before with
  | nil => rfl
  | cons m rest ih =>
    rw [sightings, sightings, Moment.sighting?_congr (h m List.mem_cons_self),
      ih fun m' hm' => h m' (List.mem_cons_of_mem m hm')]

end

/-! ## Records -/

/-- A trace as the moments so far make it: so many correlations were opened, each is in the state that
the moments tell and has its name unless the sink failed to give it, and the sink was told exactly the
moments. -/
structure Records (start : Trace) (ms : List Moment) (n : Nat) (t : Trace) : Prop where
  idStem_eq : t.idStem = start.idStem
  outageAt_eq : t.outageAt? = start.outageAt?
  length_eq : t.correlations.length = n
  state : ∀ ref < n, (t.correlation ref).finished = isFinished ms ref ∧
    (t.correlation ref).borrowed = borrowings ms ref
  named : ∀ ref < n, ∃ i, t.calls[i]? = some (.start (start.nameOf ref)) ∧
    (t.correlation ref).id =
      if (start.outageAt? i .start).isSome then untracedId else start.nameOf ref
  calls_eq : t.calls = ms.filterMap (Moment.call? (fun ref => (t.correlation ref).id) start.nameOf)
  bounded : ∀ m ∈ ms, ∀ ref ∈ m.ref?, ref < n

namespace Records

variable {start : Trace} {ms : List Moment} {n : Nat}

theorem nameOf_eq (h : Records start ms n t) : t.nameOf = start.nameOf :=
  funext fun ref => by rw [nameOf, h.idStem_eq, nameOf]

/-- A change of the trace records one more moment if it tells it to the sink and does to the
correlations what it says, and if a correlation that it adds is named by the sink. -/
theorem snoc (h : Records start ms n t) {m : Moment} {t' : Trace} {n' : Nat} (hn : n ≤ n')
    (hstem : t'.idStem = t.idStem) (houtage : t'.outageAt? = t.outageAt?)
    (hlength : t'.correlations.length = n') (href : ∀ ref ∈ m.ref?, ref < n')
    (hid : t.KeepsIds t')
    (hstate : ∀ ref < n', (t'.correlation ref).finished = isFinished (ms ++ [m]) ref ∧
      (t'.correlation ref).borrowed = borrowings (ms ++ [m]) ref)
    (hcalls : t'.calls = t.calls ++
      (m.call? (fun ref => (t'.correlation ref).id) start.nameOf).toList)
    (hnamed : ∀ ref < n', n ≤ ref → ∃ i, t'.calls[i]? = some (.start (start.nameOf ref)) ∧
      (t'.correlation ref).id =
        if (start.outageAt? i .start).isSome then untracedId else start.nameOf ref) :
    Records start (ms ++ [m]) n' t' where
  idStem_eq := hstem.trans h.idStem_eq
  outageAt_eq := houtage.trans h.outageAt_eq
  length_eq := hlength
  state := hstate
  named ref href := by
    by_cases hold : ref < n
    · obtain ⟨i, hi, hname⟩ := h.named ref hold
      refine ⟨i, ?_, (hid ref (h.length_eq.symm ▸ hold)).trans hname⟩
      rw [hcalls, List.getElem?_append_left (List.getElem?_eq_some_iff.mp hi).1, hi]
    · exact hnamed ref href (Nat.not_lt.mp hold)
  calls_eq := by
    have hold : ms.filterMap (Moment.call? (fun ref => (t'.correlation ref).id) start.nameOf) =
        ms.filterMap (Moment.call? (fun ref => (t.correlation ref).id) start.nameOf) :=
      calls_congr fun m hm ref href => hid ref (h.length_eq.symm ▸ h.bounded m hm ref href)
    rw [hcalls, h.calls_eq, List.filterMap_append, hold]
    cases hm : m.call? (fun ref => (t'.correlation ref).id) start.nameOf <;> simp [hm]
  bounded m' hm' ref hm := by
    rcases List.mem_append.mp hm' with hm' | hm'
    · exact Nat.lt_of_lt_of_le (h.bounded m' hm' ref hm) hn
    · rw [List.mem_singleton.mp hm'] at hm
      exact href ref hm

/-- A moment of which the sink is not told leaves the trace alone. -/
theorem silent (h : Records start ms n t) {m : Moment} (hcall : ∀ id name, m.call? id name = none)
    (hcloses : ∀ ref, m.closes ref = false) (hborrows : ∀ ref, m.borrows ref = false)
    (href : ∀ ref ∈ m.ref?, ref < n) : Records start (ms ++ [m]) n t := by
  refine h.snoc (Nat.le_refl n) rfl rfl h.length_eq href (fun _ _ => rfl) ?_ (by simp [hcall])
    fun ref href hle => absurd href (Nat.not_lt.mpr hle)
  intro ref href
  obtain ⟨hfinished, hborrowed⟩ := h.state ref href
  simp [hfinished, hborrowed, hcloses, hborrows]

/-- Entering a scope with a given correlation. -/
theorem given (h : Records start ms n t) (same : Bool) (href : ref < n) :
    Records start (ms ++ [.entered ref .given same]) n t :=
  h.silent (fun _ _ => rfl) (fun _ => rfl) (fun _ => rfl) (by simpa [Moment.ref?] using href)

/-- A correlation that is not open yet was neither finished nor borrowed. -/
theorem unused (h : Records start ms n t) : isFinished ms n = false ∧ borrowings ms n = 0 := by
  have hother : ∀ m ∈ ms, m.ref? ≠ some n := fun m hm href =>
    Nat.lt_irrefl n (h.bounded m hm n href)
  constructor
  · rw [isFinished, List.any_eq_false]
    intro m hm hcloses
    exact hother m hm (Moment.ref?_of_closes hcloses)
  · rw [borrowings, List.countP_eq_zero]
    intro m hm hborrows
    exact hother m hm (Moment.ref?_of_borrows hborrows)

/-- Entering a scope that opens a correlation. -/
theorem opened (h : Records start ms n t) (same : Bool) (hidle : t.active = none) : ∃ t',
    t.enter none = (t', n, .owned) ∧ t'.active = some n ∧ t.KeepsIds t' ∧
      Records start (ms ++ [.entered n .owned same]) (n + 1) t' := by
  obtain ⟨t', henter, hcalls, hcorrelations, hactive, hstem, houtage⟩ := enter_of_idle hidle
  rw [h.nameOf_eq] at hcalls
  rw [h.length_eq] at henter hcalls hactive
  have hold {ref : CorrelationRef} (href : ref < n) : t'.correlation ref = t.correlation ref := by
    simp only [correlation, hcorrelations, List.getD_eq_getElem?_getD]
    rw [List.getElem?_append_left (h.length_eq.symm ▸ href)]
  have hnew : t'.correlation n = ⟨t.nextId, false, 0⟩ := by
    simp [correlation, hcorrelations, ← h.length_eq]
  have hids : t.KeepsIds t' := fun ref href => congrArg Correlation.id (hold (h.length_eq ▸ href))
  refine ⟨t', henter, hactive, hids, h.snoc (Nat.le_succ n) hstem houtage
    (by simp [hcorrelations, h.length_eq]) (by simp [Moment.ref?]) hids ?_ hcalls ?_⟩
  · intro ref href
    rcases Nat.lt_succ_iff_lt_or_eq.mp href with href | rfl
    · obtain ⟨hfinished, hborrowed⟩ := h.state ref href
      simp [hold href, hfinished, hborrowed, Moment.closes, Moment.borrows]
    · obtain ⟨hfinished, hborrowed⟩ := h.unused
      simp [hnew, hfinished, hborrowed, Moment.closes, Moment.borrows]
  · intro ref href hle
    obtain rfl : ref = n := by omega
    refine ⟨t.calls.length, by rw [hcalls]; simp, ?_⟩
    rw [hnew, nextId, outage?, h.outageAt_eq, h.nameOf_eq, h.length_eq]

/-- A moment that changes one open correlation, but not its identifier, and of which the sink is told. -/
theorem changed (h : Records start ms n t) (change : Correlation → Correlation) (m : Moment)
    (call : SinkCall) (href : ref < n) (hchange : ∀ c, (change c).id = c.id) (hm : m.ref? = some ref)
    (hcall : ∀ id name, id ref = (t.correlation ref).id → m.call? id name = some call)
    (hstate : ∀ other < n, ∀ c,
      c = (if ref = other then change (t.correlation other) else t.correlation other) →
      c.finished = isFinished (ms ++ [m]) other ∧ c.borrowed = borrowings (ms ++ [m]) other) :
    t.KeepsIds ((t.modify ref change).tell call) ∧
      Records start (ms ++ [m]) n ((t.modify ref change).tell call) := by
  have hcorrelation {other : CorrelationRef} (hother : other < n) :
      ((t.modify ref change).tell call).correlation other =
        if ref = other then change (t.correlation other) else t.correlation other := by
    rw [correlation_tell, correlation_modify change (h.length_eq.symm ▸ hother)]
  have hid {other : CorrelationRef} (hother : other < n) :
      (((t.modify ref change).tell call).correlation other).id = (t.correlation other).id := by
    rw [hcorrelation hother]
    split_ifs
    · exact hchange _
    · rfl
  have hids : t.KeepsIds ((t.modify ref change).tell call) := fun _ hother =>
    hid (h.length_eq ▸ hother)
  refine ⟨hids, h.snoc (Nat.le_refl n) (idStem_tell ..) (outageAt?_tell ..) ?_ ?_ hids ?_ ?_
    fun ref href hle => absurd href (Nat.not_lt.mpr hle)⟩
  · rw [correlations_tell, modify, List.length_modify, h.length_eq]
  · rw [hm]
    rintro _ ⟨rfl⟩
    exact href
  · exact fun other hother => hstate other hother _ (hcorrelation hother)
  · rw [calls_tell, hcall _ _ (hid href)]
    rfl

/-- Entering a scope that borrows the active correlation. -/
theorem borrowed (h : Records start ms n t) (same : Bool) (hactive : t.active = some ref)
    (href : ref < n) : ∃ t',
    t.enter none = (t', ref, .borrowed) ∧ t'.active = t.active ∧ t.KeepsIds t' ∧
      Records start (ms ++ [.entered ref .borrowed same]) n t' := by
  refine ⟨_, enter_of_active hactive, active_tell .., h.changed _ (.entered ref .borrowed same) _ href
    (fun _ => rfl) rfl (fun id name hid => by rw [Moment.call?, hid]) ?_⟩
  rintro other hother _ rfl
  obtain ⟨hfinished, hborrowed⟩ := h.state other hother
  split_ifs with heq
  · simp [hfinished, hborrowed, Moment.closes, Moment.borrows, heq]
  · simp [hfinished, hborrowed, Moment.closes, Moment.borrows, heq]

/-- Which correlation is active is no part of what is recorded. -/
theorem idle (h : Records start ms n t) : Records start ms n { t with active := none } :=
  ⟨h.idStem_eq, h.outageAt_eq, h.length_eq, h.state, h.named, h.calls_eq, h.bounded⟩

/-- Leaving the scope that opened a correlation, which is not finished yet. -/
theorem closed (h : Records start ms n t) (failed : Bool) (href : ref < n)
    (hopen : isFinished ms ref = false) :
    (t.leave ref .owned).active = none ∧ t.KeepsIds (t.leave ref .owned) ∧
      Records start (ms ++ [.left ref .owned failed]) n (t.leave ref .owned) := by
  rw [leave_owned ((h.state ref href).1.trans hopen)]
  refine ⟨active_tell .., h.idle.changed _ (.left ref .owned failed) _ href (fun _ => rfl) rfl
    (fun id name hid => by rw [Moment.call?, hid]; rfl) ?_⟩
  rintro other hother _ rfl
  obtain ⟨hfinished, hborrowed⟩ := h.idle.state other hother
  split_ifs with heq
  · simp [hborrowed, Moment.closes, Moment.borrows, heq]
  · simp [hfinished, hborrowed, Moment.closes, Moment.borrows, heq]

/-- Leaving a scope that did not open its correlation. -/
theorem returned (h : Records start ms n t) (failed : Bool) (href : ref < n) {hold : Hold}
    (hhold : hold ≠ .owned) :
    t.leave ref hold = t ∧ Records start (ms ++ [.left ref hold failed]) n t := by
  cases hold with
  | owned => exact absurd rfl hhold
  | given | borrowed =>
    exact ⟨rfl, h.silent (fun _ _ => rfl) (fun _ => rfl) (fun _ => rfl)
      (by simpa [Moment.ref?] using href)⟩

/-- Adding a message. -/
theorem noted (h : Records start ms n t) (href : ref < n) (event : Event) :
    t.KeepsIds (t.annotate ref event) ∧
      Records start (ms ++ [.noted ref event]) n (t.annotate ref event) := by
  have hids : t.KeepsIds (t.annotate ref event) := fun other _ =>
    congrArg Correlation.id (correlation_tell ..)
  refine ⟨hids, h.snoc (Nat.le_refl n) (idStem_tell ..) (outageAt?_tell ..)
    ((congrArg List.length (correlations_tell ..)).trans h.length_eq)
    (by simpa [Moment.ref?] using href) hids ?_ ?_
    fun ref href hle => absurd href (Nat.not_lt.mpr hle)⟩
  · intro other hother
    obtain ⟨hfinished, hborrowed⟩ := h.state other hother
    rw [annotate, correlation_tell]
    simp [hfinished, hborrowed, Moment.closes, Moment.borrows]
  · rw [annotate, calls_tell, Moment.call?, correlation_tell]
    rfl

end Records

end TwinStore.Trace
