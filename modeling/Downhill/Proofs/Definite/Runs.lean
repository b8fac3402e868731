import Mathlib
import Downhill.Proofs.Definite.Arithmetic
import Downhill.Proofs.Run.Congruence

namespace Downhill

variable {quotient root : ℝ → ℝ} {P C S D σ ρ : Type}

theorem Row.write_extended (fields : List Field) :
    @Row.write ℝ (.extended quotient root) fields = Row.write fields := by
  induction fields with
  | nil => rfl
  | cons f fs ih =>
    funext row
    change (@Kind.write ℝ (.extended quotient root) f.kind row.1 >>= fun s =>
      @Row.write ℝ (.extended quotient root) fs row.2 >>= fun others => some ((f.name, s) :: others)) = _
    rw [ih]
    rfl

theorem Schema.toSettings_extended : @toSettings ℝ C (.extended quotient root) = toSettings := by
  funext schema c
  unfold toSettings
  rw [Row.write_extended]

namespace Method

theorem store_extended {places : Nat} :
    @store ℝ P C S D σ ρ (.extended quotient root) places = store := by
  unfold store
  rw [Schema.toSettings_extended]

theorem report_extended {places : Nat} :
    @report ℝ P C S D σ ρ (.extended quotient root) places = report := by
  unfold report
  rw [store_extended]

theorem iterations_extended {places : Nat} (m : Method ℝ P C S D σ) (config : C) (problem : P) (watch : Watch ℝ ρ)
    (left : Nat) : @iterations ℝ P C S D σ ρ (.extended quotient root) places m config problem watch left =
      m.iterations config problem watch left := by
  induction left with
  | zero => rfl
  | succ left ih =>
    funext done s h
    rw [@iterations.eq_2 _ _ _ _ _ _ _ (.extended quotient root), iterations, report_extended, ih]
    rfl

theorem run_extended : @run ℝ P C S D σ ρ (.extended quotient root) = run := by
  funext m config problem watch source records x budget
  unfold run running
  simp only [iterations_extended, store_extended]
  rfl

theorem solve_extended : @solve ℝ P C S D (.extended quotient root) = solve := by
  unfold solve
  rw [run_extended]

/-- For a method that is written down for every arithmetic. Whatever is answered where a divisor is zero or a
root is taken of a negative number: the method starts from the point as it does, draws as it does, and from
every state that it comes to it steps and measures as it does; and its runs from the point are the same. -/
structure Definite (m : [Scalar ℝ] → Method ℝ P C S D σ) (config : C) (problem : P) (x : Coords ℝ) : Prop where
  start (quotient root : ℝ → ℝ) : (@m (.extended quotient root)).start config problem x = m.start config problem x
  draw (quotient root : ℝ → ℝ) : (@m (.extended quotient root)).draw config = m.draw config
  step (quotient root : ℝ → ℝ) {source source' : σ} {k : Nat} {s : S} :
    m.after config problem x source k = .ok (s, source') →
      ∀ drawn, (@m (.extended quotient root)).step config problem drawn s = m.step config problem drawn s
  measured (quotient root : ℝ → ℝ) {source source' : σ} {k : Nat} {s : S} :
    m.after config problem x source k = .ok (s, source') →
      (@m (.extended quotient root)).measured problem s = m.measured problem s
  run (quotient root : ℝ → ℝ) {ρ : Type} (watch : Watch ℝ ρ) (source : σ) (records : ρ) (budget : Nat) :
    @Method.run ℝ P C S D σ ρ (.extended quotient root) (@m (.extended quotient root)) config problem watch source
      records x budget = m.run config problem watch source records x budget

variable {m : [Scalar ℝ] → Method ℝ P C S D σ} {config : C} {problem : P} {x : Coords ℝ}

/-- The draws and the steps are all that a method does between its start and what it measures. -/
theorem definite_of_kept (Holds : S → Prop)
    (rest : ∀ quotient root, @m (.extended quotient root) =
      { @m .exact with draw := (@m (.extended quotient root)).draw, step := (@m (.extended quotient root)).step })
    (draws : ∀ quotient root, (@m (.extended quotient root)).draw config = m.draw config)
    (initial : ∀ s, (m.start config problem x).outcome = .ok s → Holds s)
    (steps : ∀ quotient root drawn s, Holds s →
      (@m (.extended quotient root)).step config problem drawn s = m.step config problem drawn s)
    (keeps : ∀ drawn s s', Holds s → (m.step config problem drawn s).outcome = .ok s' → Holds s') :
    Definite m config problem x where
  start quotient root := by
    rw [rest]
  draw := draws
  step quotient root _ _ _ s reached drawn := steps quotient root drawn s (after_invariant initial keeps reached)
  measured quotient root _ _ _ s _ := by
    rw [rest]
    rfl
  run quotient root ρ watch source records budget := by
    rw [run_extended, rest]
    exact run_congr (draws quotient root) initial (steps quotient root) keeps source records budget

theorem definite_of_eq (same : ∀ {quotient root}, @m (.extended quotient root) = m) : Definite m config problem x :=
  definite_of_kept (fun _ => True) (fun _ _ => by rw [same]) (fun _ _ => by rw [same]) (fun _ _ => trivial)
    (fun _ _ _ _ _ => by rw [same]) fun _ _ _ _ _ => trivial

end Method

end Downhill
