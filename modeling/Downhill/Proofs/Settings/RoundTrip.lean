import Downhill.Proofs.Doubles
import Downhill.Proofs.Settings.Acceptance

namespace Downhill

variable {α : Type}

/-- The values of a row, each with its field. -/
def Row.values : (fields : List Field) → Row α fields → List (Σ f : Field, f.kind.Value α)
  | [], _ => []
  | f :: fs, (v, rest) => ⟨f, v⟩ :: values fs rest

theorem Row.map_values (fields : List Field) (row : Row α fields) : (values fields row).map Sigma.fst = fields := by
  induction fields with
  | nil => rfl
  | cons f fs ih => exact congrArg (f :: ·) (ih row.2)

theorem Row.describes_iff [Scalar α] {settings : Settings α} (fields : List Field) (row : Row α fields) :
    Describes settings fields row ↔
      ∀ e ∈ values fields row, ∃ s, settings.find? e.1.name = some s ∧ e.1.kind.Means s e.2 := by
  induction fields with
  | nil => exact iff_of_true trivial nofun
  | cons f fs ih =>
    obtain ⟨v, rest⟩ := row
    simp only [values, List.forall_mem_cons]
    exact and_congr_right fun _ => ih rest

/-- The values of the fields of a configuration. -/
def Schema.values {C : Type} (schema : Schema α C) (c : C) : List (Σ f : Field, f.kind.Value α) :=
  Row.values schema.fields (schema.toRow c)

/-- A count that a whole number can hold; every other value is small. -/
def Kind.Small : (kind : Kind) → kind.Value α → Prop
  | .count, n => (n.toNat : Int) ≤ Int64.maxValue.toInt
  | _, _ => True

/-- The counts of a configuration are small where they are below the bound of whole numbers. -/
theorem Schema.small_iff {C : Type} {schema : Schema α C} {c : C} :
    (∀ e ∈ schema.values c, e.1.kind.Small e.2) ↔
      ∀ name (n : UInt64), ⟨⟨name, .count⟩, n⟩ ∈ schema.values c → n.toNat < 2 ^ 63 := by
  have bound : Int64.maxValue.toInt = 2 ^ 63 - 1 := rfl
  constructor
  · intro small name n member
    have fits : (n.toNat : Int) ≤ Int64.maxValue.toInt := small _ member
    omega
  · rintro small ⟨⟨name, kind⟩, v⟩ member
    cases kind with
    | count =>
      have below := small name v member
      change ((UInt64.toNat v : Nat) : Int) ≤ Int64.maxValue.toInt
      omega
    | real => trivial
    | switch => trivial
    | choice words => trivial

namespace Kind

variable [Scalar α]

/-- A number that is finite; every other value is. -/
def Finite : (kind : Kind) → kind.Value α → Prop
  | .real, v => Scalar.isFinite (α := α) v = true
  | _, _ => True

/-- A setting as it is written for a field of the kind. -/
def spelled : Kind → Setting α → Setting α
  | .real, .integer i => .number ((i.toInt : Int) : α)
  | _, s => s

variable {kind : Kind} {s : Setting α} {v w : kind.Value α}

theorem present_number_eq_some {v : α} :
    present (.number v) = some s ↔ Scalar.isFinite v = true ∧ .number v = s := by
  change (if Scalar.isFinite v = true then some (Setting.number v) else none) = some s ↔ _
  split
  · rename_i finite
    simp only [finite, Option.some.injEq, true_and]
  · rename_i infinite
    simp only [infinite, reduceCtorEq, false_and]

theorem write_small {n : UInt64} (small : (n.toNat : Int) ≤ Int64.maxValue.toInt) :
    write .count n = some (.integer n.toInt64 : Setting α) :=
  if_pos small

theorem write_large {n : UInt64} (large : ¬(n.toNat : Int) ≤ Int64.maxValue.toInt) :
    write .count n = some (.number ((n.toNat : Nat) : α)) :=
  if_neg large

theorem exists_write (finite : kind.Finite v) : ∃ s : Setting α, kind.write v = some s := by
  cases kind with
  | real => exact ⟨_, present_number_eq_some.mpr ⟨finite, rfl⟩⟩
  | count =>
    by_cases small : Small .count v
    · exact ⟨_, write_small small⟩
    · exact ⟨_, write_large small⟩
  | switch => exact ⟨_, rfl⟩
  | choice words => exact ⟨_, rfl⟩

/-- A count fits a whole number exactly where it is not taken for a negative one. -/
theorem small_iff {n : UInt64} : (n.toNat : Int) ≤ Int64.maxValue.toInt ↔ 0 ≤ n.toInt64 := by
  have wrapped : n.toInt64.toInt = (n.toNat : Int).bmod Int64.size := by
    rw [← Int64.toInt_ofNat', ← UInt64.toInt64_ofNat', UInt64.ofNat_toNat]
  have below : n.toNat < 2 ^ 64 := n.toNat_lt
  rw [Int64.le_iff_toInt_le, wrapped, Int64.toInt_maxValue]
  simp only [Int64.toInt_zero, Int64.size, Int.bmod_def]
  omega

/-- A value as it is written has the meaning of the value. -/
theorem means_of_write (small : kind.Small v) (written : kind.write v = some s) : kind.Means s v := by
  cases kind with
  | real =>
    obtain ⟨finite, rfl⟩ := present_number_eq_some.mp written
    exact .number finite
  | count =>
    obtain rfl := Option.some.inj ((write_small small).symm.trans written)
    exact .count (small_iff.mp small)
  | switch =>
    cases written
    exact .switch _
  | choice words =>
    cases written
    exact .word _

/-- What is written for a count that is not small has no meaning for a count. -/
theorem small_of_means (written : kind.write v = some s) (means : kind.Means s w) : kind.Small v := by
  cases kind with
  | count =>
    by_contra large
    rw [write_large large] at written
    cases written
    cases means
  | real => trivial
  | switch => trivial
  | choice words => trivial

/-- A value that a setting gives is written as that setting is spelled. -/
theorem write_of_means (means : kind.Means s v) (finite : kind.Finite v) :
    kind.write v = some (kind.spelled s) := by
  cases means with
  | whole i => exact present_number_eq_some.mpr ⟨finite, rfl⟩
  | number finite => exact present_number_eq_some.mpr ⟨finite, rfl⟩
  | count natural => exact write_small (small_iff.mpr natural)
  | switch on => rfl
  | word i => rfl

/-- A setting means the same as it is spelled. -/
theorem Means.spelled (means : kind.Means s v) (finite : kind.Finite v) : kind.Means (kind.spelled s) v := by
  cases means with
  | whole i => exact .number finite
  | number finite => exact .number finite
  | count natural => exact .count natural
  | switch on => exact .switch on
  | word i => exact .word i

end Kind

variable [Scalar α]

namespace Row

variable {fields : List Field} {row : Row α fields}

theorem exists_write (finite : ∀ e ∈ values fields row, e.1.kind.Finite e.2) :
    ∃ entries, write fields row = some entries ∧ entries.map Prod.fst = fields.map Field.name ∧
      ∀ e ∈ values fields row, ∃ s, e.1.kind.write e.2 = some s ∧ (e.1.name, s) ∈ entries := by
  induction fields with
  | nil => exact ⟨[], rfl, rfl, nofun⟩
  | cons f fs ih =>
    obtain ⟨v, rest⟩ := row
    obtain ⟨here, behind⟩ := List.forall_mem_cons.mp finite
    obtain ⟨s, first⟩ := Kind.exists_write here
    obtain ⟨entries, others, names, found⟩ := ih behind
    refine ⟨(f.name, s) :: entries, ?_, congrArg (f.name :: ·) names, ?_⟩
    · simp only [write, first, others]
      rfl
    · refine List.forall_mem_cons.mpr ⟨⟨s, first, List.mem_cons_self⟩, fun e member => ?_⟩
      obtain ⟨t, written, there⟩ := found e member
      exact ⟨t, written, List.mem_cons_of_mem _ there⟩

end Row

namespace Schema

variable {C : Type} {schema : Schema α C} {requirements : List (Requirement α C)} {c : C}

/-- Where all its numbers are finite, a configuration is written under the names of the fields. -/
theorem exists_toSettings (finite : ∀ e ∈ schema.values c, e.1.kind.Finite e.2) :
    ∃ settings, schema.toSettings c = .ok settings ∧ settings.names.Perm schema.names ∧
      ∀ e ∈ schema.values c, ∃ s, e.1.kind.write e.2 = some s ∧ settings.find? e.1.name = some s := by
  obtain ⟨entries, written, names, found⟩ := Row.exists_write finite
  have distinct : (entries.map Prod.fst).Nodup := names ▸ schema.distinct_names
  have same : (Named.ofList entries).names.Perm schema.names := (Named.names_ofList distinct).trans (.of_eq names)
  refine ⟨Named.ofList entries, by simp only [toSettings, written], same, ?_⟩
  intro e member
  obtain ⟨s, same, there⟩ := found e member
  exact ⟨s, same, (Named.find?_ofList distinct).mpr there⟩

section ReadBack

variable (decides : Requirement.Decides requirements schema.validate)
  {settings : Settings α} (exact : settings.names.Perm schema.names)
  (written : ∀ e ∈ schema.values c, ∃ s, e.1.kind.write e.2 = some s ∧ settings.find? e.1.name = some s)
include decides exact written

/-- A configuration is read back exactly where its counts fit a whole number. -/
theorem readBack_iff (valid : schema.validate c = .ok ()) :
    schema.ofSettings settings = .ok c ↔ ∀ e ∈ schema.values c, e.1.kind.Small e.2 := by
  rw [ofSettings_eq_ok decides, Row.describes_iff]
  constructor
  · rintro ⟨_, described, _⟩ e member
    obtain ⟨s, same, found⟩ := written e member
    obtain ⟨t, there, means⟩ := described e member
    obtain rfl := Option.some.inj (there.symm.trans found)
    exact Kind.small_of_means same means
  · intro small
    refine ⟨exact, fun e member => ?_, valid⟩
    obtain ⟨s, same, found⟩ := written e member
    exact ⟨s, found, Kind.means_of_write (small e member) same⟩

/-- A configuration with a count too large is not read back: the setting of some count is refused. -/
theorem refused_of_large {e : Σ f : Field, f.kind.Value α} (member : e ∈ schema.values c)
    (large : ¬e.1.kind.Small e.2) :
    ∃ reason, schema.ofSettings settings = .error (.refusedSetting schema.algorithm reason) := by
  obtain ⟨s, same, found⟩ := written e member
  have field : e.1 ∈ schema.fields := by
    have fields := Row.map_values schema.fields (schema.toRow c)
    exact fields ▸ List.mem_map_of_mem member
  have useless : ¬∀ e ∈ settings.entries, Row.Suits schema.fields e := by
    intro suits
    obtain ⟨v, means⟩ := suits _ (Named.find?_eq_some.mp found) e.1 field rfl
    exact large (Kind.small_of_means same means)
  obtain ⟨answer, judged⟩ := exists_judged schema requirements settings
  rw [judged.answer decides]
  cases judged with
  | miscounted other => exact absurd (settings.length_names.symm.trans exact.length_eq) other
  | missing _ first => exact absurd (exact.mem_iff.mpr first.mem) first.holds
  | unusable => exact ⟨_, rfl⟩
  | outside _ described => exact absurd described.suits useless
  | accepted _ described => exact absurd described.suits useless

end ReadBack

/-- Accepted settings are written as they are spelled, and so they are accepted as the same configuration. -/
theorem spelled_of_accepted (decides : Requirement.Decides requirements schema.validate)
    (finite : ∀ e ∈ schema.values c, e.1.kind.Finite e.2) {settings : Settings α}
    (accepted : schema.ofSettings settings = .ok c) :
    ∃ spelled, schema.toSettings c = .ok spelled ∧ spelled.names = settings.names ∧
      (∀ f ∈ schema.fields, ∀ s, settings.find? f.name = some s → spelled.find? f.name = some (f.kind.spelled s)) ∧
      schema.ofSettings spelled = .ok c := by
  obtain ⟨exact, described, valid⟩ := (ofSettings_eq_ok decides).mp accepted
  rw [Row.describes_iff] at described
  obtain ⟨spelled, made, names, written⟩ := exists_toSettings finite
  refine ⟨spelled, made, Named.names_eq_of_perm (names.trans exact.symm), ?_, ?_⟩
  · intro f field s given
    have fields := Row.map_values schema.fields (schema.toRow c)
    obtain ⟨e, member, rfl⟩ := List.mem_map.mp (fields.symm ▸ field)
    obtain ⟨t, same, found⟩ := written e member
    obtain ⟨s', there, means⟩ := described e member
    obtain rfl := Option.some.inj (there.symm.trans given)
    rw [found, ← same, Kind.write_of_means means (finite e member)]
  · refine (readBack_iff decides names written valid).mpr fun e member => ?_
    obtain ⟨s, there, means⟩ := described e member
    exact Kind.small_of_means (Kind.write_of_means means (finite e member)) (means.spelled (finite e member))

end Schema

open List Requirement in
/-- What passes its check is finite throughout. -/
theorem Variant.finite_of_valid (fractions : Scalar.FiniteFractions α) (variant : Variant)
    {c : variant.Config α} (valid : variant.schema.validate c = .ok ()) :
    ∀ e ∈ variant.schema.values c, e.1.kind.Finite e.2 := by
  have met := variant.validate_decides.ok.mp valid
  have inside {name : String} {field : variant.Config α → α} (within : (fraction name field).Met c) :
      Scalar.isFinite (field c) = true := fractions _ within.1 within.2
  have cons {f : Field} {v : f.kind.Value α} {es : List (Σ f : Field, f.kind.Value α)} (here : f.kind.Finite v)
      (rest : ∀ e ∈ es, e.1.kind.Finite e.2) :
      ∀ e ∈ (⟨f, v⟩ : Σ f : Field, f.kind.Value α) :: es, e.1.kind.Finite e.2 :=
    forall_mem_cons.mpr ⟨here, rest⟩
  cases variant with
  | gradientDescent =>
    simp only [requirements, forall_mem_cons] at met
    obtain ⟨rate, _⟩ := met
    exact cons rate.1 nofun
  | acceleration =>
    simp only [requirements, forall_mem_cons] at met
    obtain ⟨rate, _⟩ := met
    exact cons rate.1 nofun
  | newton =>
    simp only [requirements, forall_mem_cons] at met
    obtain ⟨alpha, beta, _⟩ := met
    exact cons (inside alpha) <| cons (inside beta) nofun
  | subspaceGradient =>
    simp only [requirements, forall_mem_cons] at met
    obtain ⟨rate, _, _, _, alpha, beta, _⟩ := met
    exact cons rate.1 <| cons trivial <| cons trivial <| cons trivial <| cons (inside alpha) <|
      cons (inside beta) nofun
  | subspaceNewton =>
    simp only [requirements, forall_mem_cons] at met
    obtain ⟨_, _, _, alpha, beta, _⟩ := met
    exact cons trivial <| cons trivial <| cons trivial <| cons (inside alpha) <| cons (inside beta) nofun
  | windowedNewton =>
    simp only [requirements, forall_mem_cons] at met
    obtain ⟨_, threshold, alpha, beta, _⟩ := met
    exact cons trivial <| cons threshold.1 <| cons (inside alpha) <| cons (inside beta) nofun
  | proximalGradient =>
    simp only [requirements, forall_mem_cons] at met
    obtain ⟨eps, beta, _⟩ := met
    exact cons eps.1 <| cons (inside beta) nofun
  | proximalMomentum =>
    simp only [requirements, forall_mem_cons] at met
    obtain ⟨beta, eps, _⟩ := met
    exact cons trivial <| cons (inside beta) <| cons eps.1 nofun
  | gradientProjection =>
    simp only [requirements, forall_mem_cons] at met
    obtain ⟨eps, delta, alpha, beta, _⟩ := met
    exact cons eps.1 <| cons delta.1 <| cons alpha.1 <| cons (inside beta) nofun
  | dynamicBarrier =>
    simp only [requirements, forall_mem_cons] at met
    obtain ⟨rate, alpha, beta, eps, _, _⟩ := met
    exact cons rate.1 <| cons alpha.1 <| cons beta.1 <| cons trivial <| cons eps.1 <| cons trivial nofun
  | interiorPoint =>
    simp only [requirements, forall_mem_cons] at met
    obtain ⟨mu, eps, epsFeas, alpha, beta, _⟩ := met
    exact cons mu.1 <| cons eps.1 <| cons epsFeas.1 <| cons (inside alpha) <| cons (inside beta) nofun

/-- Valid configurations in doubles are written under exactly the names of their fields, and read back where
every count is below the bound of whole numbers; a larger one is refused. Settings that are accepted are
written as they were, but for whole numbers in real fields. -/
theorem Variant.settings_roundTrip (variant : Variant) :
    (∀ c : variant.Config Float, variant.schema.validate c = .ok () →
      ∃ settings, variant.schema.toSettings c = .ok settings ∧
        settings.names.Perm (variant.schema (α := Float)).names ∧
        (variant.schema.ofSettings settings = .ok c ↔
          ∀ name (n : UInt64), ⟨⟨name, .count⟩, n⟩ ∈ variant.schema.values c → n.toNat < 2 ^ 63) ∧
        ∀ name (n : UInt64), ⟨⟨name, .count⟩, n⟩ ∈ variant.schema.values c → 2 ^ 63 ≤ n.toNat →
          settings.find? name = some (.number (Float.ofNat n.toNat)) ∧
            ∃ reason, variant.schema.ofSettings settings =
              .error (.refusedSetting (variant.schema (α := Float)).algorithm reason)) ∧
    ∀ (settings : Settings Float) (c : variant.Config Float), variant.schema.ofSettings settings = .ok c →
      ∃ spelled : Settings Float, variant.schema.toSettings c = .ok spelled ∧ spelled.names = settings.names ∧
        (∀ f ∈ (variant.schema (α := Float)).fields, ∀ s : Setting Float,
          settings.find? f.name = some s → spelled.find? f.name = some (f.kind.spelled s)) ∧
        variant.schema.ofSettings spelled = .ok c := by
  have decides := variant.validate_decides (α := Float)
  constructor
  · intro c valid
    have finite := variant.finite_of_valid Double.finiteFractions valid
    obtain ⟨settings, made, names, written⟩ := Schema.exists_toSettings finite
    refine ⟨settings, made, names, (Schema.readBack_iff decides names written valid).trans Schema.small_iff, ?_⟩
    intro name n member beyond
    have large : ¬Kind.Small (α := Float) .count n := by
      have bound : Int64.maxValue.toInt = 2 ^ 63 - 1 := rfl
      change ¬(n.toNat : Int) ≤ Int64.maxValue.toInt
      omega
    obtain ⟨s, same, found⟩ := written _ member
    refine ⟨?_, Schema.refused_of_large decides names written member large⟩
    rw [found, ← same]
    exact Kind.write_large large
  · intro settings c accepted
    have valid := ((Schema.ofSettings_eq_ok decides).mp accepted).2.2
    exact Schema.spelled_of_accepted decides (variant.finite_of_valid Double.finiteFractions valid) accepted

/-- A window of four rows is written and read back, one of `2 ^ 63` rows is refused, and a whole number given
for the threshold is written as a number. -/
theorem Variant.settings_roundTrip_windows :
    let small : WindowedNewton.Config Float := ⟨4, 1.0, 0.25, 0.5⟩
    let large : WindowedNewton.Config Float := ⟨0x8000000000000000, 1.0, 0.25, 0.5⟩
    let whole : Settings Float := Named.ofList
      [("matrix_size", .integer 4), ("threshold_eigenvalue", .integer 1), ("alpha", .number 0.25),
        ("beta", .number 0.5)]
    (∃ settings, WindowedNewton.schema.toSettings small = .ok settings ∧
      WindowedNewton.schema.ofSettings settings = .ok small) ∧
    (∃ settings, WindowedNewton.schema.toSettings large = .ok settings ∧
      ∃ reason, WindowedNewton.schema.ofSettings settings = .error (.refusedSetting "LimitedMemoryNewton" reason)) ∧
    ∃ spelled, WindowedNewton.schema.toSettings small = .ok spelled ∧ spelled.names = whole.names ∧
      spelled.find? "threshold_eigenvalue" = some (.number 1.0) ∧
      WindowedNewton.schema.ofSettings spelled = .ok small := by
  intro small large whole
  refine ⟨?_, ?_, ?_⟩
  · have valid : WindowedNewton.schema.validate small = .ok () := by decide +kernel
    obtain ⟨settings, made, _, back, _⟩ := (settings_roundTrip .windowedNewton).1 small valid
    have fits : ((4 : UInt64).toNat : Int) ≤ Int64.maxValue.toInt := by decide
    refine ⟨settings, made, back.mpr (Schema.small_iff.mp ?_)⟩
    exact List.forall_mem_cons.mpr ⟨fits, List.forall_mem_cons.mpr ⟨trivial,
      List.forall_mem_cons.mpr ⟨trivial, List.forall_mem_cons.mpr ⟨trivial, nofun⟩⟩⟩⟩
  · have valid : WindowedNewton.schema.validate large = .ok () := by decide +kernel
    obtain ⟨settings, made, _, _, refused⟩ := (settings_roundTrip .windowedNewton).1 large valid
    exact ⟨settings, made, (refused "matrix_size" 0x8000000000000000 List.mem_cons_self (by decide)).2⟩
  · have accepted : WindowedNewton.schema.ofSettings whole = .ok small := rfl
    obtain ⟨spelled, spell, names, found, again⟩ := (settings_roundTrip .windowedNewton).2 whole small accepted
    exact ⟨spelled, spell, names, found ⟨"threshold_eigenvalue", .real⟩ (by decide) (.integer 1) rfl, again⟩

end Downhill
