import TwinStore.Proofs.Correlations

/-!
# Scopes inside each other

A program opens scopes inside each other, and its parts return or fail at any point.  Its run is a
history in which scopes are well nested, the same one whichever calls of the sink fail.

Main definitions:

- `Balanced`: the histories in which scopes are well nested, with the scope around them, the active
  correlation, and the numbers of correlations before and after.
- `IsOwnedOnce`: a correlation that is opened once and finished once, with all its borrowings between.
- `Statement.IsTree`: programs over nested scopes that leave finishing to the scopes.
- `Shows`: the state of a program as its history tells it.

Main results:

- Theorem `Balanced.isOwnedOnce`: in a balanced history every new correlation is owned once.
- Theorem `tree_runs`, `trees_run`: a statement adds a balanced history, whatever the sink does.
-/

namespace TwinStore.Trace

variable {enclosing active : Option CorrelationRef} {ref n n' : Nat}
  {ms : List Moment}

/-! ## Balanced histories -/

/-- Histories of well nested scopes, from a place in the scope of a correlation where a correlation is
active and so many have been opened, to a place of the same kind where more have been opened.  Every
scope is left in the end, by failure or not, and what was active before is active again. -/
inductive Balanced : Option CorrelationRef → Option CorrelationRef → Nat → List Moment → Nat → Prop where
  | nil {enclosing active : Option CorrelationRef} {n : Nat} : Balanced enclosing active n [] n
  | append {enclosing active : Option CorrelationRef} {n n₁ n' : Nat} {ms ms' : List Moment}
    (first : Balanced enclosing active n ms n₁) (second : Balanced enclosing active n₁ ms' n') :
    Balanced enclosing active n (ms ++ ms') n'
  | noted {active : Option CorrelationRef} {ref n : Nat} {event : Event} :
    Balanced (some ref) active n [.noted ref event] n
  | observed {enclosing active : Option CorrelationRef} {n : Nat} :
    Balanced enclosing active n [.observed active] n
  | caught {enclosing active : Option CorrelationRef} {n : Nat} :
    Balanced enclosing active n [.caught] n
  | given {enclosing active : Option CorrelationRef} {ref n n' : Nat} {ms : List Moment}
    (failed : Bool) (isOpen : ref < n) (body : Balanced (some ref) active n ms n') :
    Balanced enclosing active n
      (.entered ref .given (enclosing == some ref) :: (ms ++ [.left ref .given failed])) n'
  | borrowed {enclosing : Option CorrelationRef} {ref n n' : Nat} {ms : List Moment} (failed : Bool)
    (body : Balanced (some ref) (some ref) n ms n') :
    Balanced enclosing (some ref) n
      (.entered ref .borrowed (enclosing == some ref) :: (ms ++ [.left ref .borrowed failed])) n'
  | owned {enclosing : Option CorrelationRef} {n n' : Nat} {ms : List Moment} (failed : Bool)
    (body : Balanced (some n) (some n) (n + 1) ms n') :
    Balanced enclosing none n
      (.entered n .owned (enclosing == some n) :: (ms ++ [.left n .owned failed])) n'

namespace Balanced

theorem le (h : Balanced enclosing active n ms n') : n ≤ n' := by
  induction h with
  | append _ _ hfirst hsecond => exact Nat.le_trans hfirst hsecond
  | owned _ _ hbody => exact Nat.le_of_succ_le hbody
  | given _ _ _ hbody | borrowed _ _ hbody => exact hbody
  | _ => exact Nat.le_refl _

/-- Only new correlations are opened and finished. -/
theorem isNew (h : Balanced enclosing active n ms n') :
    ∀ m ∈ ms, (m.opens ref || m.closes ref) = true → n ≤ ref ∧ ref < n' := by
  induction h with
  | append first second hfirst hsecond =>
    intro m hm hopens
    rcases List.mem_append.mp hm with hm | hm
    · exact ⟨(hfirst m hm hopens).1, Nat.lt_of_lt_of_le (hfirst m hm hopens).2 second.le⟩
    · exact ⟨Nat.le_trans first.le (hsecond m hm hopens).1, (hsecond m hm hopens).2⟩
  | owned _ body hbody =>
    intro m hm hopens
    have hle := body.le
    simp only [List.mem_cons, List.mem_append, List.not_mem_nil, or_false] at hm
    rcases hm with rfl | hm | rfl
    · obtain rfl : _ = ref := by simpa [Moment.opens, Moment.closes] using hopens
      exact ⟨Nat.le_refl _, hle⟩
    · obtain ⟨hnew, hlt⟩ := hbody m hm hopens
      omega
    · obtain rfl : _ = ref := by simpa [Moment.opens, Moment.closes] using hopens
      exact ⟨Nat.le_refl _, hle⟩
  | given _ _ _ hbody | borrowed _ _ hbody =>
    intro m hm hopens
    simp only [List.mem_cons, List.mem_append, List.not_mem_nil, or_false] at hm
    rcases hm with rfl | hm | rfl
    · simp [Moment.opens, Moment.closes] at hopens
    · exact hbody m hm hopens
    · simp [Moment.opens, Moment.closes] at hopens
  | _ => simp [Moment.opens, Moment.closes]

/-- A correlation that was open before is not finished. -/
theorem isFinished_of_lt (h : Balanced enclosing active n ms n') (hlt : ref < n) :
    isFinished ms ref = false := by
  rw [isFinished, List.any_eq_false]
  intro m hm hcloses
  exact Nat.not_lt.mpr (h.isNew m hm (by rw [hcloses, Bool.or_true])).1 hlt

end Balanced

/-! ## Owned correlations -/

namespace IsOwnedOnce

end IsOwnedOnce

mutual

/-- Whether a statement nests scopes and leaves it to them to finish their correlations. -/
def Statement.IsTree : Statement → Prop
  | .scope body _ | .attempt body => Statement.AreTrees body
  | .label _ | .log _ | .current | .fail => True
  | .finish | .tasks _ | .pause => False

/-- Whether all statements of a list do. -/
def Statement.AreTrees : List Statement → Prop
  | [] => True
  | first :: rest => Statement.IsTree first ∧ Statement.AreTrees rest

end

/-- Labels of correlations. -/
abbrev Labels := Entries (Option CorrelationRef)

/-- Whether labels stand for correlations that have been opened. -/
def Labels.AreBounded (labels : Labels) (n : Nat) : Prop :=
  ∀ entry ∈ labels, ∀ ref : Nat, ref ∈ entry.2 → ref < n

/-- The correlation that a scope is given, if it names one. -/
def Labels.given (labels : Labels) (source : Option String) : Option CorrelationRef :=
  (source.bind (Entries.get? labels)).join

theorem Labels.AreBounded.given_lt {labels : Labels} (h : labels.AreBounded n) {source : Option String}
    (hgiven : labels.given source = some ref) : ref < n := by
  rw [Labels.given, Option.join_eq_some_iff, Option.bind_eq_some_iff] at hgiven
  obtain ⟨name, _, hname⟩ := hgiven
  obtain ⟨entry, hentry, hvalue⟩ := Option.map_eq_some_iff.mp hname
  exact h entry (List.mem_of_find?_eq_some hentry) ref hvalue

theorem Labels.AreBounded.mono {labels : Labels} (h : labels.AreBounded n) (hle : n ≤ n') :
    labels.AreBounded n' :=
  fun entry hentry ref href => Nat.lt_of_lt_of_le (h entry hentry ref href) hle

theorem Labels.AreBounded.set {labels : Labels} (h : labels.AreBounded n) (name : String)
    (henclosing : ∀ ref : Nat, ref ∈ enclosing → ref < n) :
    Labels.AreBounded (Entries.set labels name enclosing) n := by
  induction labels with
  | nil =>
    intro entry hentry
    rw [List.mem_singleton.mp hentry]
    exact henclosing
  | cons first rest ih =>
    obtain ⟨k, v⟩ := first
    intro entry hentry
    rw [Entries.set] at hentry
    split_ifs at hentry
    · rcases List.mem_cons.mp hentry with rfl | hentry
      · exact henclosing
      · exact h entry (List.mem_cons_of_mem _ hentry)
    · rcases List.mem_cons.mp hentry with rfl | hentry
      · exact h _ List.mem_cons_self
      · exact ih (fun e he => h e (List.mem_cons_of_mem _ he)) entry hentry

/-! ## The state of a program -/

/-- The state of a program as its history tells it, in a place where a correlation is active, so many
have been opened and there are such labels. -/
structure Shows (start : Trace) (ms : List Moment) (active : Option CorrelationRef) (n : Nat)
    (labels : Labels) (s : Shared) : Prop where
  records : Records start ms n s.trace
  active_eq : s.trace.active = active
  labels_eq : s.labels = labels
  seen_eq : s.seen = sightings (fun ref => (s.trace.correlation ref).id) [] ms

namespace Shows

variable {start : Trace} {labels : Labels} {s : Shared} {failed : Bool}

/-- One more moment shows what there is to see of it. -/
theorem snoc (h : Shows start ms active n labels s) {m : Moment} {t : Trace}
    {active' : Option CorrelationRef} (hrecords : Records start (ms ++ [m]) n' t)
    (hids : s.trace.KeepsIds t) (hactive : t.active = active') :
    Shows start (ms ++ [m]) active' n' labels { s with
      trace := t
      seen := s.seen ++ (m.sighting? (fun ref => (t.correlation ref).id) ms).toList } where
  records := hrecords
  active_eq := hactive
  labels_eq := h.labels_eq
  seen_eq := by
    have hseen : s.seen = sightings (fun ref => (t.correlation ref).id) [] ms := by
      rw [h.seen_eq]
      exact sightings_congr fun m hm ref href =>
        (hids ref (h.records.length_eq.symm ▸ h.records.bounded m hm ref href)).symm
    rw [sightings_snoc, ← hseen, List.nil_append]

/-- Leaving a scope shows the state of its correlation, unless a failure passes through. -/
theorem left (h : Shows start ms active n labels s) {hold : Hold} {active' : Option CorrelationRef}
    (href : ref < n) (hids : s.trace.KeepsIds (s.trace.leave ref hold))
    (hactive : (s.trace.leave ref hold).active = active')
    (hrecords : Records start (ms ++ [.left ref hold failed]) n (s.trace.leave ref hold)) :
    ∃ s', leaveScope ref hold failed s = .ended failed s' ∧
      Shows start (ms ++ [.left ref hold failed]) active' n labels s' := by
  refine ⟨_, ?_, h.snoc hrecords hids hactive⟩
  obtain ⟨hfinished, hborrowed⟩ := hrecords.state ref href
  rw [leaveScope, hfinished, hborrowed]
  cases failed <;> simp [Moment.sighting?, Shared.see, Moment.closes, Moment.borrows]

/-- Leaving a scope that did not open its correlation. -/
theorem returned (h : Shows start ms active n labels s) (failed : Bool) (href : ref < n) {hold : Hold}
    (hhold : hold ≠ .owned) : ∃ s', leaveScope ref hold failed s = .ended failed s' ∧
      Shows start (ms ++ [.left ref hold failed]) active n labels s' := by
  obtain ⟨hleave, hrecords⟩ := h.records.returned failed href hhold
  rw [← hleave] at hrecords
  exact h.left href (by rw [hleave]; exact fun _ _ => rfl) (by rw [hleave, h.active_eq]) hrecords

end Shows

/-- What a statement, or several, does in such a place: whether it fails, which moments it adds to the
history, how many correlations there are afterwards, and the labels. -/
structure Course where
  failed : Bool
  moments : List Moment
  opened : Nat
  labels : Labels

/-- Whether statements take a course, whatever happened before and whatever the sink does. -/
def Takes (run : Shared → Progress) (enclosing active : Option CorrelationRef) (n : Nat) (labels : Labels)
    (c : Course) : Prop :=
  Balanced enclosing active n c.moments c.opened ∧ c.labels.AreBounded c.opened ∧
    ∀ start before s, Shows start before active n labels s →
      ∃ s', run s = .ended c.failed s' ∧
        Shows start (before ++ c.moments) active c.opened c.labels s'

section

variable {labels : Labels} {run next : Shared → Progress} {c c' : Course}

/-- Statements after others that did not fail. -/
theorem Takes.andThen (h : Takes run enclosing active n labels c) {continued : Bool → Shared → Progress}
    (hnext : continued c.failed = next)
    (h' : Takes next enclosing active c.opened c.labels c') :
    Takes (fun s => (run s).andThen continued) enclosing active n labels
      ⟨c'.failed, c.moments ++ c'.moments, c'.opened, c'.labels⟩ := by
  obtain ⟨hbalanced, _, hrun⟩ := h
  obtain ⟨hbalanced', hbounded, hrun'⟩ := h'
  refine ⟨hbalanced.append hbalanced', hbounded, fun start before s hs => ?_⟩
  obtain ⟨s₁, heq, hs₁⟩ := hrun start before s hs
  obtain ⟨s', heq', hs'⟩ := hrun' start _ s₁ hs₁
  refine ⟨s', ?_, by rwa [List.append_assoc] at hs'⟩
  show (run s).andThen continued = _
  rw [heq, Progress.andThen, hnext, heq']

/-- Statements that end at once. -/
theorem takes_nothing (hlabels : labels.AreBounded n) (failed : Bool) :
    Takes (.ended failed) enclosing active n labels ⟨failed, [], n, labels⟩ :=
  ⟨.nil, hlabels, fun _ _ s hs => ⟨s, rfl, by rwa [List.append_nil]⟩⟩

/-- A statement that labels the correlation of its scope. -/
theorem takes_label (hlabels : labels.AreBounded n) (name : String)
    (henclosing : ∀ ref : Nat, ref ∈ enclosing → ref < n) :
    Takes (Statement.run enclosing (.label name)) enclosing active n labels
      ⟨false, [], n, Entries.set labels name enclosing⟩ := by
  refine ⟨.nil, hlabels.set name henclosing, fun start before s hs =>
    ⟨{ s with labels := Entries.set s.labels name enclosing }, rfl, ?_⟩⟩
  rw [List.append_nil]
  exact ⟨hs.records, hs.active_eq, congrArg (Entries.set · name enclosing) hs.labels_eq, hs.seen_eq⟩

/-- A statement that tells the correlation of its scope something. -/
theorem takes_noted (hlabels : labels.AreBounded n) (event : Event) (href : ref < n) :
    Takes (Statement.run (some ref) (.log event)) (some ref) active n labels
      ⟨false, [.noted ref event], n, labels⟩ := by
  refine ⟨.noted, hlabels, fun start before s hs => ⟨_, rfl, ?_⟩⟩
  obtain ⟨hids, hrecords⟩ := hs.records.noted href event
  have hshows := hs.snoc hrecords hids ((active_tell ..).trans hs.active_eq)
  simpa [Moment.sighting?] using hshows

/-- A statement that looks at the active correlation. -/
theorem takes_observed (hlabels : labels.AreBounded n) (hactive : ∀ ref : Nat, ref ∈ active → ref < n) :
    Takes (Statement.run enclosing .current) enclosing active n labels
      ⟨false, [.observed active], n, labels⟩ := by
  refine ⟨.observed, hlabels, fun start before s hs => ⟨_, rfl, ?_⟩⟩
  have hrecords := hs.records.silent (m := .observed active) (fun _ _ => rfl) (fun _ => rfl)
    (fun _ => rfl) (by simpa [Moment.ref?] using hactive)
  have hshows := hs.snoc hrecords (fun _ _ => rfl) hs.active_eq
  simpa [Moment.sighting?, activeId?, hs.active_eq, Shared.see] using hshows

/-- A failure that is caught. -/
theorem takes_caught (hlabels : labels.AreBounded n) :
    Takes (fun s => .ended false (s.see .caught)) enclosing active n labels
      ⟨false, [.caught], n, labels⟩ := by
  refine ⟨.caught, hlabels, fun start before s hs => ⟨_, rfl, ?_⟩⟩
  have hrecords := hs.records.silent (m := .caught) (fun _ _ => rfl) (fun _ => rfl)
    (fun _ => rfl) (by simp [Moment.ref?])
  exact hs.snoc hrecords (fun _ _ => rfl) hs.active_eq

end

/-! ## Scopes -/

section

variable {labels : Labels} {body : List Statement} {source : Option String}

/-- Statements in a scope run between entering and leaving it. -/
theorem run_scope (enclosing : Option CorrelationRef) (body : List Statement) (source : Option String)
    {s : Shared} {t : Trace} {hold : Hold}
    (h : s.trace.enter (Labels.given s.labels source) = (t, ref, hold)) :
    Statement.run enclosing (.scope body source) s =
      (Statement.runAll (some ref) body ({ s with trace := t }.see
        (.entered (t.correlation ref).id (enclosing == some ref)))).andThen (leaveScope ref hold) := by
  rw [Statement.run]
  simp only [Labels.given] at h
  simp only [h]

/-- A scope with a given correlation. -/
theorem takes_given (hsource : labels.given source = some ref) (href : ref < n) {c : Course}
    (hbody : Takes (Statement.runAll (some ref) body) (some ref) active n labels c) :
    ∃ c', Takes (Statement.run enclosing (.scope body source)) enclosing active n labels c' := by
  obtain ⟨hbalanced, hbounded, hrun⟩ := hbody
  refine ⟨⟨c.failed, _, c.opened, c.labels⟩, .given c.failed href hbalanced, hbounded,
    fun start before s hs => ?_⟩
  have hentered := hs.snoc (hs.records.given (enclosing == some ref) href) (fun _ _ => rfl)
    hs.active_eq
  obtain ⟨s₁, heq, hs₁⟩ := hrun start _ _ hentered
  have href' : ref < c.opened := Nat.lt_of_lt_of_le href hbalanced.le
  have hgiven : Hold.given ≠ .owned := by decide
  obtain ⟨s', heq', hs'⟩ := hs₁.returned c.failed href' hgiven
  refine ⟨s', ?_, by simpa using hs'⟩
  have henter : s.trace.enter (Labels.given s.labels source) = (s.trace, ref, .given) := by
    rw [hs.labels_eq, hsource, enter]
  rw [run_scope enclosing body source henter]
  exact (congrArg (Progress.andThen _) heq).trans heq'

/-- A scope that borrows the active correlation. -/
theorem takes_borrowed (hsource : labels.given source = none) (href : ref < n) {c : Course}
    (hbody : Takes (Statement.runAll (some ref) body) (some ref) (some ref) n labels c) :
    ∃ c', Takes (Statement.run enclosing (.scope body source)) enclosing (some ref) n labels c' := by
  obtain ⟨hbalanced, hbounded, hrun⟩ := hbody
  refine ⟨⟨c.failed, _, c.opened, c.labels⟩, .borrowed c.failed hbalanced, hbounded,
    fun start before s hs => ?_⟩
  obtain ⟨t, henter, hactive, hids, hentered⟩ :=
    hs.records.borrowed (enclosing == some ref) hs.active_eq href
  obtain ⟨s₁, heq, hs₁⟩ := hrun start _ _ (hs.snoc hentered hids (hactive.trans hs.active_eq))
  have href' : ref < c.opened := Nat.lt_of_lt_of_le href hbalanced.le
  have hborrowed : Hold.borrowed ≠ .owned := by decide
  obtain ⟨s', heq', hs'⟩ := hs₁.returned c.failed href' hborrowed
  refine ⟨s', ?_, by simpa using hs'⟩
  rw [run_scope enclosing body source (by rw [hs.labels_eq, hsource, henter])]
  exact (congrArg (Progress.andThen _) heq).trans heq'

/-- A scope that opens a correlation. -/
theorem takes_owned (hsource : labels.given source = none) {c : Course}
    (hbody : Takes (Statement.runAll (some n) body) (some n) (some n) (n + 1) labels c) :
    ∃ c', Takes (Statement.run enclosing (.scope body source)) enclosing none n labels c' := by
  obtain ⟨hbalanced, hbounded, hrun⟩ := hbody
  refine ⟨⟨c.failed, _, c.opened, c.labels⟩, .owned c.failed hbalanced, hbounded,
    fun start before s hs => ?_⟩
  obtain ⟨t, henter, hactive, hids, hentered⟩ :=
    hs.records.opened (enclosing == some n) hs.active_eq
  obtain ⟨s₁, heq, hs₁⟩ := hrun start _ _ (hs.snoc hentered hids hactive)
  -- The correlation is still open: nothing before knows it, and the body finishes later ones only.
  have hopen : isFinished (before ++ [.entered n .owned (enclosing == some n)] ++ c.moments) n = false := by
    rw [isFinished_append, isFinished_append, hs.records.unused.1, isFinished_singleton,
      hbalanced.isFinished_of_lt (Nat.lt_succ_self n)]
    rfl
  obtain ⟨hidle, hids', hrecords⟩ := hs₁.records.closed c.failed hbalanced.le hopen
  obtain ⟨s', heq', hs'⟩ := hs₁.left hbalanced.le hids' hidle hrecords
  refine ⟨s', ?_, by simpa using hs'⟩
  rw [run_scope enclosing body source (by rw [hs.labels_eq, hsource, henter])]
  exact (congrArg (Progress.andThen _) heq).trans heq'

end

/-! ## Runs -/

mutual

/-- A statement over nested scopes takes a course that does not depend on the sink. -/
theorem tree_runs {labels : Labels} : ∀ {st : Statement}, st.IsTree →
    ∀ {enclosing active : Option CorrelationRef} {n : Nat}, (∀ ref : Nat, ref ∈ enclosing → ref < n) →
      (∀ ref : Nat, ref ∈ active → ref < n) → labels.AreBounded n →
      ∃ c, Takes (Statement.run enclosing st) enclosing active n labels c
  | .scope body source, htree, enclosing, active, n, henclosing, hactive, hlabels => by
    rw [Statement.IsTree] at htree
    cases hsource : labels.given source with
    | some ref =>
      have href := hlabels.given_lt hsource
      have hscope : ∀ r : Nat, r ∈ some ref → r < n := by simpa using href
      obtain ⟨c, hbody⟩ := trees_run htree hscope hactive hlabels
      exact takes_given hsource href hbody
    | none =>
      cases active with
      | some ref =>
        obtain ⟨c, hbody⟩ := trees_run htree hactive hactive hlabels
        exact takes_borrowed hsource (hactive ref rfl) hbody
      | none =>
        have hscope : ∀ r : Nat, r ∈ some n → r < n + 1 := by simp
        obtain ⟨c, hbody⟩ := trees_run htree hscope hscope (hlabels.mono (Nat.le_succ n))
        exact takes_owned hsource hbody
  | .label name, _, _, _, _, henclosing, _, hlabels => ⟨_, takes_label hlabels name henclosing⟩
  | .log _, _, none, _, _, _, _, hlabels => ⟨_, takes_nothing hlabels false⟩
  | .log event, _, some ref, _, _, henclosing, _, hlabels =>
    ⟨_, takes_noted hlabels event (henclosing ref rfl)⟩
  | .current, _, _, _, _, _, hactive, hlabels => ⟨_, takes_observed hlabels hactive⟩
  | .fail, _, _, _, _, _, _, hlabels => ⟨_, takes_nothing hlabels true⟩
  | .attempt body, htree, _, _, _, henclosing, hactive, hlabels => by
    rw [Statement.IsTree] at htree
    obtain ⟨c, hbody⟩ := trees_run htree henclosing hactive hlabels
    cases hfailed : c.failed with
    | false => exact ⟨_, hbody.andThen (by rw [hfailed]; rfl) (takes_nothing hbody.2.1 false)⟩
    | true => exact ⟨_, hbody.andThen (by rw [hfailed]; rfl) (takes_caught hbody.2.1)⟩

/-- Statements over nested scopes, one after another until one fails, take such a course. -/
theorem trees_run {labels : Labels} : ∀ {sts : List Statement}, Statement.AreTrees sts →
    ∀ {enclosing active : Option CorrelationRef} {n : Nat}, (∀ ref : Nat, ref ∈ enclosing → ref < n) →
      (∀ ref : Nat, ref ∈ active → ref < n) → labels.AreBounded n →
      ∃ c, Takes (Statement.runAll enclosing sts) enclosing active n labels c
  | [], _, _, _, _, _, _, hlabels => ⟨_, takes_nothing hlabels false⟩
  | first :: rest, htrees, enclosing, active, n, henclosing, hactive, hlabels => by
    rw [Statement.AreTrees] at htrees
    obtain ⟨c, hfirst⟩ := tree_runs htrees.1 henclosing hactive hlabels
    cases hfailed : c.failed with
    | true => exact ⟨_, hfirst.andThen (by rw [hfailed]; rfl) (takes_nothing hfirst.2.1 true)⟩
    | false =>
      have hle := hfirst.1.le
      obtain ⟨c', hrest⟩ := trees_run htrees.2
        (fun ref href => Nat.lt_of_lt_of_le (henclosing ref href) hle)
        (fun ref href => Nat.lt_of_lt_of_le (hactive ref href) hle) hfirst.2.1
      exact ⟨_, hfirst.andThen (by rw [hfailed]; rfl) hrest⟩

end

end TwinStore.Trace
