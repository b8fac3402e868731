import Downhill.Proofs.Run.Loop
import Downhill.Proofs.Safety.Unconstrained

namespace Downhill

/-- Something that happens in a run. -/
inductive Turn (α : Type) (places : Nat)
  /-- The method notes something while it starts or makes a step. -/
  | noted (events : List (Event α))
  /-- The run adds a line of its own. -/
  | line (event : Event α)
  /-- The recorder is called. -/
  | call (h : History α places)

namespace Turn

variable {α ρ : Type} {places : Nat}

/-- A turn of the run, not of its method. -/
def own : Turn α places → Bool
  | noted _ => false
  | _ => true

def line? : Turn α places → Option (Event α)
  | line e => some e
  | _ => none

def call? : Turn α places → Option (History α places)
  | call h => some h
  | _ => none

/-- What the recorder holds and what is on the log after a turn. With every call the recorder is told the
settings. -/
def play (recorder : Option (Recorder α ρ)) (settings : Except (Failure α) (Settings α))
    (before : ρ × Array (Event α)) : Turn α places → Except (Failure α) (ρ × Array (Event α))
  | noted events => .ok (before.1, before.2 ++ events)
  | line e => .ok (before.1, before.2 ++ [e])
  | call h =>
    match recorder with
    | none => .ok before
    | some r => do
      let told ← settings
      let events ← (r.store h told before.1).2
      return ((r.store h told before.1).1, before.2 ++ events)

theorem filter_own_lines (lines : List (Event α)) :
    (lines.map .line : List (Turn α places)).filter own = lines.map .line :=
  List.filter_eq_self.mpr fun turn member => by
    obtain ⟨_, _, rfl⟩ := List.mem_map.mp member
    rfl

theorem filterMap_line?_lines (lines : List (Event α)) :
    (lines.map .line : List (Turn α places)).filterMap line? = lines := by
  rw [List.filterMap_map]
  exact List.filterMap_some

theorem filterMap_call?_lines (lines : List (Event α)) :
    (lines.map .line : List (Turn α places)).filterMap call? = [] := by
  rw [List.filterMap_map]
  exact List.filterMap_eq_nil_iff.mpr fun _ _ => rfl

end Turn

namespace Method

variable {α P C S D σ ρ : Type} [Scalar α]

section Definitions

variable (m : Method α P C S D σ) (config : C) (problem : P) (watch : Watch α ρ) (x : Coords α) (source : σ)
  (places : Nat)

/-- What the method notes when it starts, and in each step that it makes. -/
def notedIn : Nat → List (Event α)
  | 0 => (m.start config problem x).events
  | i + 1 =>
    match m.after config problem x source i with
    | .ok (s, between) => (m.step config problem (m.draw config between).1 s).events
    | .error _ => []

/-- The series after so many steps; without such a state there is nothing in them. -/
def seriesAt (i : Nat) : History α places :=
  (m.historyAfter config problem watch x source places i).toOption.getD History.empty

/-- The objective in the series after so many steps. -/
def valueAt (i : Nat) : α :=
  ((m.seriesAt config problem watch x source places i).at? History.objectiveName i).getD 0

/-- A report: a line on the progress, and right after it a call of the recorder. -/
def reportAt (i : Nat) : List (Turn α places) :=
  [.line (.progress m.tag i (m.valueAt config problem watch x source places i)),
    .call (m.seriesAt config problem watch x source places i)]

/-- The turns up to the state after so many steps, and whatever is reported there. -/
def turnsTo : Nat → List (Turn α places)
  | 0 => [.noted (m.notedIn config problem x source 0)]
  | i + 1 => turnsTo i ++ .noted (m.notedIn config problem x source (i + 1)) ::
      if watch.interval ∣ i + 1 then m.reportAt config problem watch x source places (i + 1) else []

/-- The line that a run ends with if it has not used its budget. -/
def stopLine (k budget : Nat) : List (Event α) :=
  if k < budget then [.stopped m.tag k] else []

variable {places}

/-- What comes of playing some turns from the beginning. -/
def plays (records : ρ) (turns : List (Turn α places)) : Except (Failure α) (ρ × Array (Event α)) :=
  turns.foldlM (Turn.play watch.recorder (m.schema.toSettings config)) (records, #[])

/-- A run comes to the state after so many steps: no state before was finished, what is measured has had a value at
every state, and the turns up to there can be played. -/
structure ComesTo (records : ρ) (i : Nat) (s : S) (between : σ) (h : History α places)
    (held : ρ × Array (Event α)) : Prop where
  reached : m.after config problem x source i = .ok (s, between)
  unfinished : ∀ j < i, m.finishedAfter config problem x source j = false
  seen : m.historyAfter config problem watch x source places i = .ok h
  played : m.plays config watch records (m.turnsTo config problem watch x source places i) = .ok held

/-- Series that cover the states up to the one after so many steps: what was measured there, in their order,
with zeros behind, and what the clock has shown. There are no other series. -/
structure Covers (i : Nat) (h : History α places) : Prop where
  tracked : ∀ name value, (name, value) ∈ m.tracked problem →
    (∀ j ≤ i, ∃ s between v, m.after config problem x source j = .ok (s, between) ∧ value s = .ok v ∧
      h.at? name j = some v) ∧
    ∀ j, i < j → j < places → h.at? name j = some 0
  time : ∀ j < places, h.at? History.timeName j = some (if 0 < j ∧ j ≤ i then watch.clock j else 0)
  others : ∀ name, name ≠ History.timeName → name ∉ (m.tracked problem).map Prod.fst → ∀ j, h.at? name j = none

end Definitions

variable {m : Method α P C S D σ} {config : C} {problem : P} {watch : Watch α ρ} {x : Coords α} {source : σ}
  {records : ρ} {places budget : Nat}

omit [Scalar α] in
theorem notedIn_succ {i : Nat} {s : S} {between : σ}
    (reached : m.after config problem x source i = .ok (s, between)) :
    m.notedIn config problem x source (i + 1) = (m.step config problem (m.draw config between).1 s).events := by
  rw [notedIn, reached]

theorem seriesAt_eq {i : Nat} {h : History α places}
    (seen : m.historyAfter config problem watch x source places i = .ok h) :
    m.seriesAt config problem watch x source places i = h := by
  rw [seriesAt, seen]
  rfl

theorem plays_append {turns later : List (Turn α places)} {held : ρ × Array (Event α)} :
    m.plays config watch records (turns ++ later) = .ok held ↔
      ∃ between, m.plays config watch records turns = .ok between ∧
        later.foldlM (Turn.play watch.recorder (m.schema.toSettings config)) between = .ok held := by
  rw [plays, List.foldlM_append, Outcome.bind_eq_ok]
  rfl

/-- The record is stored exactly when the recorder takes its turn. -/
theorem store_eq_ok {h : History α places} {l l' : Ledger α σ ρ} :
    (m.store config watch h).onLedger l = (.ok (), l') ↔
      ∃ held, Turn.play watch.recorder (m.schema.toSettings config) (l.records, l.events) (.call h) = .ok held ∧
        l' = ⟨l.source, held.1, l.waits, held.2⟩ := by
  unfold store Turn.play
  cases watch.recorder with
  | none =>
    constructor
    · intro ended
      cases ended
      exact ⟨_, rfl, rfl⟩
    · rintro ⟨_, same, rfl⟩
      cases same
      rfl
  | some r =>
    simp only [Running.onLedger_bind_eq_ok, Running.onLedger_store_eq_ok, Running.onLedger_except, Prod.mk.injEq,
      Outcome.bind_eq_ok, Outcome.pure_eq_ok, Outcome.relabelled_eq_ok]
    constructor
    · rintro ⟨settings, _, ⟨told, rfl⟩, events, answer, rfl⟩
      exact ⟨_, ⟨settings, told, events, answer, rfl⟩, rfl⟩
    · rintro ⟨_, ⟨settings, told, events, answer, rfl⟩, rfl⟩
      exact ⟨settings, l, ⟨told, rfl⟩, events, answer, rfl⟩

/-- A report comes to an end exactly when its turns do. -/
theorem report_eq_ok {i : Nat} {v : α} {h : History α places} {l l' : Ledger α σ ρ}
    (seen : m.historyAfter config problem watch x source places (i + 1) = .ok h)
    (value : h.at? History.objectiveName (i + 1) = some v) :
    (m.report config watch (i + 1) v h).onLedger l = (.ok (), l') ↔
      ∃ held, (if watch.interval ∣ i + 1 then m.reportAt config problem watch x source places (i + 1)
          else []).foldlM (Turn.play watch.recorder (m.schema.toSettings config)) (l.records, l.events) = .ok held ∧
        l' = ⟨l.source, held.1, l.waits, held.2⟩ := by
  have same : m.reportAt config problem watch x source places (i + 1) =
      [.line (.progress m.tag (i + 1) v), .call h] := by
    rw [reportAt, valueAt, seriesAt_eq seen, value, Option.getD_some]
  have due : watch.interval ≠ 0 ∧ (i + 1) % watch.interval = 0 ↔ watch.interval ∣ i + 1 := by
    rw [Nat.dvd_iff_mod_eq_zero]
    refine and_iff_right_of_imp fun divided none => ?_
    rw [none, Nat.mod_zero] at divided
    cases divided
  rw [report, same]
  by_cases here : watch.interval ∣ i + 1
  · rw [if_pos (due.mpr here), if_pos here, Running.onLedger_bind_ok (Running.onLedger_notes _ l), store_eq_ok]
    simp [Turn.play]
  · rw [if_neg (mt due.mp here), if_neg here]
    constructor
    · intro ended
      cases ended
      exact ⟨_, rfl, rfl⟩
    · rintro ⟨_, same, rfl⟩
      cases same
      rfl

/-- The series have one value at each state looked at, and only the series of what is measured are there. -/
theorem covers_of_seen {i : Nat} {h : History α places}
    (seen : m.historyAfter config problem watch x source places i = .ok h) (inside : i < places) :
    m.Covers config problem watch x source i h := by
  refine ⟨fun name value member => at?_historyAfter seen inside member, ?_, ?_⟩
  · induction i generalizing h with
    | zero =>
      obtain ⟨_, _, _, _, made⟩ := historyAfter_zero_eq_ok.mp seen
      intro j within
      have early : ¬ (0 < j ∧ j ≤ 0) := by omega
      rw [at?_time_observe made inside within, if_neg early, History.at?_empty, Option.getD_none, ite_self]
    | succ i ih =>
      obtain ⟨before, _, _, _, earlier, _, made⟩ := historyAfter_succ_eq_ok.mp seen
      intro j within
      rw [at?_time_observe made inside within, ih earlier (by omega) j within]
      by_cases here : j = i + 1
      · subst here
        simp
      · have early : (0 < j ∧ j ≤ i) = (0 < j ∧ j ≤ i + 1) := propext (by omega)
        simp [here, early]
  · intro name apart untracked j
    rcases Nat.lt_or_ge j places with within | outside
    · induction i generalizing h with
      | zero =>
        obtain ⟨_, _, _, _, made⟩ := historyAfter_zero_eq_ok.mp seen
        rw [at?_other_observe made inside apart untracked within, History.at?_empty]
      | succ i ih =>
        obtain ⟨before, _, _, _, earlier, _, made⟩ := historyAfter_succ_eq_ok.mp seen
        rw [at?_other_observe made inside apart untracked within, ih earlier (by omega)]
    · exact History.at?_of_le outside

/-- Apart from what the method notes, there is nothing but the reports. -/
theorem filterMap_turnsTo {β : Type} {f : Turn α places → Option β} (silent : ∀ events, f (.noted events) = none)
    (k : Nat) : (m.turnsTo config problem watch x source places k).filterMap f =
      ((List.range' 1 k).filter (watch.interval ∣ ·)).flatMap fun i =>
        (m.reportAt config problem watch x source places i).filterMap f := by
  induction k with
  | zero => simp [turnsTo, silent]
  | succ k ih =>
    rw [turnsTo, List.filterMap_append, ih, List.range'_1_concat, Nat.add_comm 1 k, List.filter_append,
      List.flatMap_append, List.filterMap_cons_none (silent _)]
    congr 1
    by_cases due : watch.interval ∣ k + 1
    · simp [due]
    · simp [due]

theorem own_turnsTo (k : Nat) : (m.turnsTo config problem watch x source places k).filter Turn.own =
    ((List.range' 1 k).filter (watch.interval ∣ ·)).flatMap
      (m.reportAt config problem watch x source places) := by
  rw [← List.filterMap_eq_filter]
  exact filterMap_turnsTo (fun _ => rfl) k

theorem lines_turnsTo (k : Nat) : (m.turnsTo config problem watch x source places k).filterMap Turn.line? =
    ((List.range' 1 k).filter (watch.interval ∣ ·)).map fun i =>
      .progress m.tag i (m.valueAt config problem watch x source places i) :=
  (filterMap_turnsTo (fun _ => rfl) k).trans List.map_eq_flatMap.symm

theorem calls_turnsTo (k : Nat) : (m.turnsTo config problem watch x source places k).filterMap Turn.call? =
    ((List.range' 1 k).filter (watch.interval ∣ ·)).map (m.seriesAt config problem watch x source places) :=
  (filterMap_turnsTo (fun _ => rfl) k).trans List.map_eq_flatMap.symm

/-- The multiples of the interval up to a number of steps. -/
theorem length_reports (interval k : Nat) : ((List.range' 1 k).filter (interval ∣ ·)).length = k / interval := by
  induction k with
  | zero => simp
  | succ k ih =>
    rw [List.range'_1_concat, Nat.add_comm 1 k, List.filter_append, List.length_append, ih, Nat.succ_div]
    by_cases due : interval ∣ k + 1
    · simp [due]
    · simp [due]

/-- A run that comes to a state has come to all those before. -/
theorem ComesTo.before {i j : Nat} {s : S} {between : σ} {h : History α places} {held : ρ × Array (Event α)}
    (comes : m.ComesTo config problem watch x source records j s between h held) (early : i ≤ j) :
    ∃ s' between' held', ∃ h' : History α places,
      m.ComesTo config problem watch x source records i s' between' h' held' := by
  induction early generalizing s between h held with
  | refl => exact ⟨s, between, held, h, comes⟩
  | @step j _ ih =>
    obtain ⟨s', between', reached, _⟩ := after_succ_eq_ok.mp comes.reached
    obtain ⟨h', _, _, _, seen, _⟩ := historyAfter_succ_eq_ok.mp comes.seen
    obtain ⟨held', played, _⟩ := plays_append.mp comes.played
    have unfinished : ∀ k < j, m.finishedAfter config problem x source k = false :=
      fun k front => comes.unfinished k (Nat.lt_succ_of_lt front)
    exact ih ⟨reached, unfinished, seen, played⟩

section Step

variable {i : Nat} {s : S} {h : History α (budget + 1)} {l : Ledger α σ ρ}
  (comes : m.ComesTo config problem watch x source records i s l.source h (l.records, l.events))

include comes

/-- The report after a step comes to an end exactly when the turns up to there can be played. -/
theorem report_played {v : α} {h' : History α (budget + 1)} {waits : Nat} {source' : σ} {l' : Ledger α σ ρ}
    (seen : m.historyAfter config problem watch x source (budget + 1) (i + 1) = .ok h')
    (value : h'.at? History.objectiveName (i + 1) = some v) :
    (m.report config watch (i + 1) v h').onLedger ⟨source', l.records, waits,
        l.events ++ (m.step config problem (m.draw config l.source).1 s).events⟩ = (.ok (), l') ↔
      ∃ held, m.plays config watch records (m.turnsTo config problem watch x source (budget + 1) (i + 1)) =
      .ok held ∧
        l' = ⟨source', held.1, waits, held.2⟩ := by
  have next : ∀ held, m.plays config watch records
      (m.turnsTo config problem watch x source (budget + 1) (i + 1)) = .ok held ↔
        (if watch.interval ∣ i + 1 then m.reportAt config problem watch x source (budget + 1) (i + 1)
          else []).foldlM (Turn.play watch.recorder (m.schema.toSettings config))
          (l.records, l.events ++ (m.step config problem (m.draw config l.source).1 s).events) = .ok held := by
    intro held
    rw [turnsTo, plays_append, comes.played]
    simp [Turn.play, notedIn_succ comes.reached]
  simp only [next, report_eq_ok seen value]

variable (unfinished : ¬ m.finished s = true)

include unfinished

/-- A step that fails has noted its events, and no turn comes after it. -/
theorem iterations_of_failed (left : Nat) {stop : Stop α}
    (failed : (m.step config problem (m.draw config l.source).1 s).outcome = .error stop) :
    ∃ l', (m.iterations config problem watch (left + 1) i s h).onLedger l = (.error stop, l') ∧
      m.plays config watch records (m.turnsTo config problem watch x source (budget + 1) i ++
        [.noted (m.step config problem (m.draw config l.source).1 s).events]) = .ok (l'.records, l'.events) := by
  rw [iterations, if_neg unfinished, Running.onLedger_bind_ok (Running.onLedger_draw _ l),
    Running.onLedger_bind_error (by rw [Running.onLedger_lift, failed])]
  exact ⟨_, rfl, plays_append.mpr ⟨_, comes.played, rfl⟩⟩

/-- The iterations go on to the next state if the run comes to it. -/
theorem iterations_goes (inside : i + 1 < budget + 1) (left : Nat) {s' : S} {source' : σ}
    {h' : History α (budget + 1)} {held : ρ × Array (Event α)}
    (next : m.ComesTo config problem watch x source records (i + 1) s' source' h' held) :
    (m.iterations config problem watch (left + 1) i s h).onLedger l =
      (m.iterations config problem watch left (i + 1) s' h').onLedger ⟨source', held.1, l.waits + 1, held.2⟩ := by
  obtain ⟨_, _, same, made, rfl⟩ := after_succ_eq_ok.mp next.reached
  cases comes.reached.symm.trans same
  obtain ⟨_, _, _, v, earlier, here, observed⟩ := historyAfter_succ_eq_ok.mp next.seen
  cases comes.seen.symm.trans earlier
  cases next.reached.symm.trans here
  have reported : (m.report config watch (i + 1) v h').onLedger
      ⟨(m.draw config l.source).2, l.records, l.waits + 1, _⟩ = (.ok (), ⟨_, held.1, _, held.2⟩) :=
    (report_played comes next.seen (at?_objective_observe observed inside)).mpr ⟨held, next.played, rfl⟩
  rw [iterations, if_neg unfinished, Running.onLedger_bind_ok (Running.onLedger_draw _ l),
    Running.onLedger_bind_ok (by rw [Running.onLedger_lift, made]),
    Running.onLedger_bind_ok (Running.onLedger_synchronize _),
    Running.onLedger_bind_ok (by rw [Running.onLedger_checked, observed]; rfl)]
  dsimp only
  rw [Running.onLedger_bind_ok reported]

/-- Iterations that come to an end have gone on so. -/
theorem iterations_gone (inside : i + 1 < budget + 1) (left : Nat) {summary : Summary α S (budget + 1)}
    {l' : Ledger α σ ρ}
    (ended : (m.iterations config problem watch (left + 1) i s h).onLedger l = (.ok summary, l')) :
    ∃ s' source' h' held, m.ComesTo config problem watch x source records (i + 1) s' source' h' held ∧
      (m.iterations config problem watch left (i + 1) s' h').onLedger ⟨source', held.1, l.waits + 1, held.2⟩ =
        (.ok summary, l') := by
  rw [iterations, if_neg unfinished, Running.onLedger_bind_ok (Running.onLedger_draw _ l)] at ended
  simp only [Running.onLedger_bind_eq_ok, Running.onLedger_checked, Running.onLedger_synchronize] at ended
  simp only [Running.onLedger_lift, Prod.mk.injEq, Outcome.relabelled_eq_ok] at ended
  obtain ⟨s', _, ⟨made, rfl⟩, _, _, ⟨_, rfl⟩, ⟨v, h'⟩, _, ⟨observed, rfl⟩, _, told, reported, rest⟩ := ended
  have next := after_succ_eq_ok.mpr ⟨s, l.source, comes.reached, made, rfl⟩
  have seen := historyAfter_succ_eq_ok.mpr ⟨h, s', _, v, comes.seen, next, observed⟩
  have still : ∀ j < i + 1, m.finishedAfter config problem x source j = false :=
    Nat.forall_lt_succ_right.mpr
      ⟨comes.unfinished, (finishedAfter_eq comes.reached).trans (Bool.eq_false_iff.mpr unfinished)⟩
  obtain ⟨held, played, rfl⟩ := (report_played comes seen (at?_objective_observe observed inside)).mp reported
  exact ⟨s', _, h', held, ⟨next, still, seen, played⟩, rest⟩

end Step

/-- The iterations that are left add the turns of the states that they come to, and the stop line where they end
before the budget does. -/
theorem iterations_played {left i : Nat} (whole : i + left = budget) {s : S} {h : History α (budget + 1)}
    {l l' : Ledger α σ ρ} {summary : Summary α S (budget + 1)}
    (comes : m.ComesTo config problem watch x source records i s l.source h (l.records, l.events))
    (ended : (m.iterations config problem watch left i s h).onLedger l = (.ok summary, l')) :
    m.plays config watch records (m.turnsTo config problem watch x source (budget + 1) summary.iterations ++
      (m.stopLine summary.iterations budget).map .line) = .ok (l'.records, l'.events) := by
  -- On the iterations left; the ledger is what the turns so far have come to.
  induction left generalizing i s h l with
  | zero =>
    cases ended
    obtain rfl : i = budget := whole
    rw [stopLine, if_neg (Nat.lt_irrefl i), List.map_nil, List.append_nil]
    exact comes.played
  | succ left ih =>
    by_cases finished : m.finished s = true
    · rw [iterations, if_pos finished, Running.onLedger_bind_ok (Running.onLedger_notes _ l)] at ended
      cases ended
      have early : i < budget := by omega
      rw [stopLine, if_pos early]
      exact plays_append.mpr ⟨_, comes.played, rfl⟩
    · obtain ⟨s', source', h', held, next, rest⟩ := iterations_gone comes finished (by omega) left ended
      exact ih (by omega) next rest

/-- From every state before, the iterations come to a step that fails. -/
theorem iterations_fail {left i n : Nat} (early : i + n < budget) (whole : i + left = budget) {s t : S}
    {between : σ} {h h' : History α (budget + 1)} {l : Ledger α σ ρ} {held : ρ × Array (Event α)} {stop : Stop α}
    (comes : m.ComesTo config problem watch x source records i s l.source h (l.records, l.events))
    (last : m.ComesTo config problem watch x source records (i + n) t between h' held)
    (unfinished : ¬ m.finished t = true)
    (failed : (m.step config problem (m.draw config between).1 t).outcome = .error stop) :
    ∃ l', (m.iterations config problem watch left i s h).onLedger l = (.error stop, l') ∧
      m.plays config watch records (m.turnsTo config problem watch x source (budget + 1) (i + n) ++
        [.noted (m.step config problem (m.draw config between).1 t).events]) = .ok (l'.records, l'.events) := by
  -- On the steps to that state.
  induction n generalizing left i s h l with
  | zero =>
    obtain ⟨left, rfl⟩ : ∃ rest, left = rest + 1 := ⟨left - 1, by omega⟩
    cases comes.reached.symm.trans last.reached
    cases comes.seen.symm.trans last.seen
    exact iterations_of_failed comes unfinished left failed
  | succ n ih =>
    obtain ⟨left, rfl⟩ : ∃ rest, left = rest + 1 := ⟨left - 1, by omega⟩
    have same : i + 1 + n = i + (n + 1) := by omega
    obtain ⟨s', source', held', h', next⟩ := last.before (show i + 1 ≤ i + (n + 1) by omega)
    have going : ¬ m.finished s = true := by
      rw [← finishedAfter_eq comes.reached, last.unfinished i (by omega)]
      exact Bool.false_ne_true
    rw [iterations_goes comes going (by omega) left next]
    obtain ⟨l', ended, played⟩ := ih (l := ⟨_, _, _, _⟩) (show i + 1 + n < budget by omega)
      (show i + 1 + left = budget by omega) next (same ▸ last)
    exact ⟨l', ended, same ▸ played⟩

/-- A run whose start can be looked at goes on with its iterations. -/
theorem run_begins (valid : m.schema.validate config = .ok ()) {s : S} {h : History α (budget + 1)}
    {held : ρ × Array (Event α)} (comes : m.ComesTo config problem watch x source records 0 s source h held) :
    m.run config problem watch source records x budget = (do
      let summary ← m.iterations config problem watch budget 0 s h
      m.store config watch summary.history
      return summary : Running α σ ρ _).onLedger ⟨source, held.1, 1, held.2⟩ := by
  obtain ⟨started, _⟩ := after_zero_eq_ok.mp comes.reached
  obtain ⟨_, _, v, reached, observed⟩ := historyAfter_zero_eq_ok.mp comes.seen
  cases comes.reached.symm.trans reached
  have played : (records, #[] ++ (m.start config problem x).events) = held := Except.ok.inj comes.played
  rw [run_starts valid started observed, ← played]

/-- A run that returns comes of the turns of its states, the stop line where it has not used its budget, and a last
call of the recorder with the series that are returned. -/
theorem run_played {summary : Summary α S (budget + 1)}
    (returned : (m.run config problem watch source records x budget).1 = .ok summary) :
    m.plays config watch records (m.turnsTo config problem watch x source (budget + 1) summary.iterations ++
      (m.stopLine summary.iterations budget).map .line ++ [.call summary.history]) =
        .ok ((m.run config problem watch source records x budget).2.records,
          (m.run config problem watch source records x budget).2.events) := by
  have result := run_returned returned
  obtain ⟨h, seen⟩ := historyAfter_ok_of_le result.seen (Nat.zero_le _)
  obtain ⟨s, _, _, reached, _⟩ := historyAfter_zero_eq_ok.mp seen
  rw [(after_zero_eq_ok.mp reached).2] at reached
  have comes : m.ComesTo config problem watch x source records 0 s source h
      (records, #[] ++ (m.start config problem x).events) :=
    ⟨reached, fun _ early => absurd early (Nat.not_lt_zero _), seen, rfl⟩
  have ended : _ = (Except.ok summary, (m.run config problem watch source records x budget).2) :=
    (run_begins (valid_of_run returned) comes).symm.trans (Prod.ext returned rfl)
  obtain ⟨_, between, iterated, rest⟩ := Running.onLedger_bind_eq_ok.mp ended
  obtain ⟨_, _, stored, done⟩ := Running.onLedger_bind_eq_ok.mp rest
  cases done
  obtain ⟨held, called, stored⟩ := store_eq_ok.mp stored
  rw [stored]
  refine plays_append.mpr ⟨_, iterations_played (Nat.zero_add budget) comes iterated, ?_⟩
  rw [List.foldlM_cons, called]
  rfl

/-- A run whose step fails comes of the turns up to there, and of what the step has noted. -/
theorem run_of_failed {i : Nat} {s : S} {between : σ} {h : History α (budget + 1)} {held : ρ × Array (Event α)}
    {stop : Stop α} (valid : m.schema.validate config = .ok ())
    (comes : m.ComesTo config problem watch x source records i s between h held) (early : i < budget)
    (unfinished : m.finished s = false)
    (failed : (m.step config problem (m.draw config between).1 s).outcome = .error stop) :
    (m.run config problem watch source records x budget).1 = .error stop ∧
      m.plays config watch records (m.turnsTo config problem watch x source (budget + 1) i ++
        [.noted (m.step config problem (m.draw config between).1 s).events]) =
          .ok ((m.run config problem watch source records x budget).2.records,
            (m.run config problem watch source records x budget).2.events) := by
  obtain ⟨s', source', held', h', first⟩ := comes.before (Nat.zero_le i)
  obtain ⟨_, rfl⟩ := after_zero_eq_ok.mp first.reached
  have going : ¬ m.finished s = true := Bool.eq_false_iff.mp unfinished
  have last : m.ComesTo config problem watch x source' records (0 + i) s between h held :=
    (Nat.zero_add i).symm ▸ comes
  obtain ⟨l', ended, played⟩ :=
    iterations_fail (l := ⟨source', held'.1, 1, held'.2⟩) (by omega) (Nat.zero_add budget)
    first last going failed
  rw [run_begins valid first, Running.onLedger_bind_error ended]
  exact ⟨rfl, Nat.zero_add i ▸ played⟩

/-- A run that returns adds a line on the progress for each multiple of the interval, each with a call of the
recorder, which is given the series up to there, and the stop line exactly if it has not used its budget; one
more call ends it. If a step fails, nothing comes after what it has noted. -/
theorem run_trace (m : Method α P C S D σ) (config : C) (problem : P) (watch : Watch α ρ) (x : Coords α)
    (source : σ) (records : ρ) (budget : Nat) :
    let ran := m.run config problem watch source records x budget
    let turnsTo := m.turnsTo config problem watch x source (budget + 1)
    let seriesAt := m.seriesAt config problem watch x source (budget + 1)
    let reports := fun k => (List.range' 1 k).filter (watch.interval ∣ ·)
    let progress := fun i => Event.progress m.tag i (m.valueAt config problem watch x source (budget + 1) i)
    (∀ summary, ran.1 = .ok summary →
      let k := summary.iterations
      let stop := if k < budget then [Event.stopped m.tag k] else []
      let turns := turnsTo k ++ stop.map .line ++ [.call summary.history]
      m.plays config watch records turns = .ok (ran.2.records, ran.2.events) ∧
      turns.filter Turn.own = ((reports k).flatMap fun i => [.line (progress i), .call (seriesAt i)]) ++
        stop.map .line ++ [.call summary.history] ∧
      turns.filterMap Turn.line? = (reports k).map progress ++ stop ∧
      turns.filterMap Turn.call? = (reports k).map seriesAt ++ [summary.history] ∧
      (turns.filterMap Turn.call?).length = k / watch.interval + 1 ∧
      (∀ i ≤ k, m.Covers config problem watch x source i (seriesAt i)) ∧ seriesAt k = summary.history) ∧
    ∀ i s between (h : History α (budget + 1)) held stop, m.schema.validate config = .ok () →
      m.ComesTo config problem watch x source records i s between h held → i < budget →
      m.finished s = false → (m.step config problem (m.draw config between).1 s).outcome = .error stop →
      let turns := turnsTo i ++ [.noted (m.step config problem (m.draw config between).1 s).events]
      ran.1 = .error stop ∧ m.plays config watch records turns = .ok (ran.2.records, ran.2.events) ∧
        turns.filterMap Turn.line? = (reports i).map progress ∧
        turns.filterMap Turn.call? = (reports i).map seriesAt := by
  intro ran turnsTo seriesAt reports progress
  constructor
  · intro summary returned k stop turns
    have result := run_returned returned
    have calls : turns.filterMap Turn.call? = (reports k).map seriesAt ++ [summary.history] := by
      rw [List.filterMap_append, List.filterMap_append, calls_turnsTo, Turn.filterMap_call?_lines, List.append_nil]
      rfl
    refine ⟨run_played returned, ?_, ?_, calls, ?_, fun i early => ?_, seriesAt_eq result.seen⟩
    · rw [List.filter_append, List.filter_append, own_turnsTo, Turn.filter_own_lines]
      rfl
    · rw [List.filterMap_append, List.filterMap_append, lines_turnsTo, Turn.filterMap_line?_lines]
      exact List.append_nil _
    · rw [calls, List.length_append, List.length_map, length_reports]
      rfl
    · obtain ⟨h, seen⟩ := historyAfter_ok_of_le result.seen early
      have inside : i < budget + 1 := Nat.lt_succ_of_le (early.trans result.within)
      rw [show seriesAt i = h from seriesAt_eq seen]
      exact covers_of_seen seen inside
  · intro i s between h held stop valid comes early unfinished failed turns
    obtain ⟨ended, played⟩ := run_of_failed valid comes early unfinished failed
    refine ⟨ended, played, ?_, ?_⟩
    · rw [List.filterMap_append, lines_turnsTo]
      exact List.append_nil _
    · rw [List.filterMap_append, calls_turnsTo]
      exact List.append_nil _

/-- A recorder that counts its calls is called twice in three steps of gradient descent if every second step is
reported, and never where the first step of Newton's method fails. -/
theorem run_trace_counted :
    let counter : Recorder ℝ Nat := ⟨fun _ _ calls => (calls + 1, .ok [])⟩
    let x : Coords ℝ := .constant 1 1
    let ran := GradientDescent.method.run ⟨0.5⟩ (.halfSquare 1) ⟨2, some counter, fun _ => 0⟩ () 0 x 3
    let failed := Newton.method.run ⟨0.25, 0.5⟩ (.quadratic (.zeros 1 1) x) ⟨1, some counter, fun _ => 0⟩ () 0 x 3
    (∃ summary, ran.1 = .ok summary ∧ summary.iterations = 3 ∧ ran.2.records = 2) ∧
      failed.1 = .error (.failure (.singularSystem "Newton direction")) ∧ failed.2.records = 0 := by
  intro counter x ran failed
  have calm : ∀ (watch : Watch ℝ Nat) settings stop, watch.recorder = some counter →
    ¬ watch.Refuses settings stop := by
    rintro watch settings stop present ⟨r, why, _, h, held, same, _, refused⟩
    cases present.symm.trans same
    cases refused
  have size : x.size = 1 := Coords.size_constant 1 1
  constructor
  · let watch : Watch ℝ Nat := ⟨2, some counter, fun _ => 0⟩
    have complete : (Objective.halfSquare 1).Complete 1 :=
      Objective.quadratic_complete (Table.height_identity 1) (Table.width_identity 1) (Coords.size_constant _ _)
    have written : GradientDescent.schema.toSettings (⟨0.5⟩ : GradientDescent.Config ℝ) =
        .ok (Named.ofList [("lr", .number 0.5)]) := rfl
    obtain ⟨summary, returned⟩ : ∃ summary, ran.1 = .ok summary := by
      cases ended : ran.1 with
      | ok summary => exact ⟨summary, rfl⟩
      | error stop =>
        have valid : GradientDescent.schema.validate (⟨0.5⟩ : GradientDescent.Config ℝ) = .ok () :=
          requirePositive_eq_ok.mpr ⟨rfl, by norm_num⟩
        rcases (GradientDescent.guarded complete size ⟨0.5⟩).run_fails valid ended with ⟨_, _, never⟩ | fails
        · exact (never.elim id id).elim
        · exact absurd (fails.refuses written) (calm watch _ _ rfl)
    have count : summary.iterations = 3 := (run_returned returned).last.trans
      (GradientDescent.lastIndex_eq_budget _ complete.toConforming size 3)
    obtain ⟨played, _⟩ := (run_trace GradientDescent.method ⟨0.5⟩ (.halfSquare 1) watch x () 0 3).1 summary returned
    refine ⟨summary, returned, count, ?_⟩
    rw [count] at played
    obtain ⟨_, calls, _⟩ : (∃ told, _ = Except.ok told) ∧ 2 = ran.2.records ∧ _ = ran.2.events := by
      simpa [plays, turnsTo, reportAt, Turn.play, watch, counter] using played
    exact calls.symm
  · let watch : Watch ℝ Nat := ⟨1, some counter, fun _ => 0⟩
    let f : Objective ℝ := .quadratic (.zeros 1 1) x
    have complete : f.Complete 1 :=
      Objective.quadratic_complete (Table.height_zeros 1 1) (Table.width_zeros 1 1) size
    have singular : (Newton.step ⟨0.25, 0.5⟩ f (.initial x)).outcome =
        .error (.failure (.singularSystem "Newton direction")) := by
      have ends : (Newton.step ⟨0.25, 0.5⟩ f (.initial x)).Ends _ _ := Newton.step_ends complete size
      rcases ends with ⟨s', made, _⟩ | ⟨why, refused, rfl⟩
      · obtain ⟨_, _, hessian, _, _, _, moves⟩ := Newton.step_eq_ok.mp made
        obtain ⟨E, factored⟩ := eliminate_of_solve moves.direction_eq
        cases moves.hessian_eq
        refine absurd ?_ (Table.eliminated factored).2.1
        rw [Table.height_zeros, Table.mat_zeros, Matrix.det_zero]
      · exact refused
    obtain ⟨v, h, observed⟩ := observe_ok (Newton.measured (s := .initial x) complete.toConforming size) 0 0
      (History.empty : History ℝ 4)
    have comes : Newton.method.ComesTo ⟨0.25, 0.5⟩ f watch x () 0 0 (.initial x) () h (0, #[]) :=
      ⟨rfl, fun _ early => absurd early (Nat.not_lt_zero _), historyAfter_zero_eq_ok.mpr ⟨_, _, v, rfl, observed⟩,
      rfl⟩
    have valid : Newton.schema.validate (⟨0.25, 0.5⟩ : Newton.Config ℝ) = .ok () :=
      Newton.validate_eq_ok.mpr (by norm_num)
    obtain ⟨ended, played, _⟩ := (run_trace Newton.method ⟨0.25, 0.5⟩ f watch x () 0 3).2 0 _ _ h _ _ valid comes
      (by norm_num) rfl singular
    exact ⟨ended, (congrArg (fun outcome => (outcome.toOption.getD (0, #[])).1) played).symm⟩

end Method

end Downhill
