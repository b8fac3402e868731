import Downhill.Machine
import Downhill.Proofs.Settings.Requirements
import Downhill.Proofs.Settings.Values

namespace Downhill

section Names

variable {α β : Type} {c : Named β} {algorithm : String} {names : List String}

theorem Named.checkNames_of_count (other : c.size ≠ names.length) :
    c.checkNames (α := α) algorithm names = .error (.settingCount algorithm names.length c.size) :=
  if_pos other

theorem Named.checkNames_of_missing (counted : c.size = names.length) {name : String}
    (first : First (· ∉ c.names) names name) :
    c.checkNames (α := α) algorithm names = .error (.missingSetting algorithm name) := by
  have absent : (fun name => (!c.contains name) = true) = (· ∉ c.names) := by
    funext name
    rw [Bool.not_eq_true', ← Bool.not_eq_true, contains_iff]
  have found : names.find? (fun name => !c.contains name) = some name := (absent ▸ first).find?
  unfold checkNames
  rw [if_neg (not_not.mpr counted), found]

theorem Named.checkNames_of_perm (exact : c.names.Perm names) : c.checkNames (α := α) algorithm names = .ok () := by
  have counted : c.size = names.length := c.length_names.symm.trans exact.length_eq
  have found : names.find? (fun name => !c.contains name) = none := by
    refine List.find?_eq_none.mpr fun name member => ?_
    rw [contains_iff.mpr (exact.mem_iff.mpr member)]
    exact Bool.false_ne_true
  unfold checkNames
  rw [if_neg (not_not.mpr counted), found]

end Names

variable {α C : Type} [Scalar α]

namespace Row

variable {fields : List Field} {settings : Settings α}

/-- A field with the name of an entry can use the setting in it. -/
def Suits (fields : List Field) (e : String × Setting α) : Prop :=
  ∀ f ∈ fields, f.name = e.1 → f.kind.Usable e.2

theorem find?_name (distinct : (fields.map Field.name).Nodup) {f : Field} (field : f ∈ fields) :
    fields.find? (·.name = f.name) = some f := by
  cases found : fields.find? (·.name = f.name) with
  | none => simpa using List.find?_eq_none.mp found f field
  | some g =>
    have same : g.name = f.name := by simpa using List.find?_some found
    rw [List.inj_on_of_nodup_map distinct (List.mem_of_find?_eq_some found) field same]

theorem firstRefusal_of_suits (words : ∀ f ∈ fields, f.kind.words.Nodup)
    (suits : ∀ e ∈ settings.entries, Suits fields e) :
    firstRefusal fields settings = none := by
  refine List.findSome?_eq_none_iff.mpr fun ⟨name, s⟩ member => Option.bind_eq_none_iff.mpr fun f found => ?_
  have field : f ∈ fields := List.mem_of_find?_eq_some found
  have same : f.name = name := by simpa using List.find?_some found
  obtain ⟨v, means⟩ := suits _ member f field same
  simp only [Kind.read_of_means (words f field) means]

theorem firstRefusal_of_first (names : (fields.map Field.name).Nodup) (words : ∀ f ∈ fields, f.kind.words.Nodup)
    {f : Field} (field : f ∈ fields) {s : Setting α}
    (first : First (fun e => ¬Suits fields e) settings.entries (f.name, s)) :
    firstRefusal fields settings = some (f.kind.objection s) := by
  have unusable : ¬f.kind.Usable s := fun usable =>
    first.holds fun g member same => List.inj_on_of_nodup_map names member field same ▸ usable
  have refused : f.kind.read (Kind.present s) = .error (f.kind.objection s) :=
    (Kind.read_eq_error (words f field)).mpr ⟨unusable, rfl⟩
  refine First.findSome? (x := (f.name, s)) ?_ ?_
  · refine first.congr fun ⟨name, t⟩ => ?_
    constructor
    · intro fails none
      refine fails fun g member same => ?_
      subst same
      simp only [find?_name names member, Option.bind_some] at none
      obtain ⟨v, _, means⟩ | objected := Kind.read_cases g.kind t
      · exact ⟨v, means⟩
      · simp only [objected] at none
        cases none
    · intro present suits
      refine present (Option.bind_eq_none_iff.mpr fun g found => ?_)
      have member : g ∈ fields := List.mem_of_find?_eq_some found
      have same : g.name = name := by simpa using List.find?_some found
      obtain ⟨v, means⟩ := suits g member same
      simp only [Kind.read_of_means (words g member) means]
  · simp only [find?_name names field, Option.bind_some, refused]

/-- Settings with the names of the fields, each with a value for its field, describe a row. -/
theorem exists_describes_of_suits (exact : settings.names.Perm (fields.map Field.name))
    (suits : ∀ e ∈ settings.entries, Suits fields e) : ∃ row, Describes settings fields row := by
  refine exists_describes fun f field => ?_
  obtain ⟨s, found⟩ := Named.exists_find? (exact.mem_iff.mpr (List.mem_map_of_mem field))
  exact ⟨s, found, suits _ (Named.find?_eq_some.mp found) f field rfl⟩

theorem Describes.suits {row : Row α fields} (described : Describes settings fields row) :
    ∀ e ∈ settings.entries, Suits fields e := by
  intro e member f field same
  refine described.usable field (Named.find?_eq_some.mpr ?_)
  rw [same]
  exact member

end Row

namespace Schema

section Judgement

variable (schema : Schema α C) (requirements : List (Requirement α C)) (settings : Settings α)

/-- How settings are answered, told without going through them. -/
inductive Judged : Except (Failure α) C → Prop
  /-- There are more settings than fields, or fewer. -/
  | miscounted (other : settings.size ≠ schema.names.length) :
      Judged (.error (.settingCount schema.algorithm schema.names.length settings.size))
  /-- There are as many, but a name is missing. -/
  | missing {name : String} (counted : settings.size = schema.names.length)
      (first : First (· ∉ settings.names) schema.names name) :
      Judged (.error (.missingSetting schema.algorithm name))
  /-- The names are those of the fields, but a setting has no value for its field. The settings are in the order of
  their names. -/
  | unusable {f : Field} {s : Setting α} (exact : settings.names.Perm schema.names) (field : f ∈ schema.fields)
      (first : First (fun e => ¬Row.Suits schema.fields e) settings.entries (f.name, s)) :
      Judged (.error (.refusedSetting schema.algorithm (f.kind.objection s)))
  /-- The settings describe a configuration that is not as required. -/
  | outside {c : C} {r : Requirement α C} (exact : settings.names.Perm schema.names)
      (described : Row.Describes settings schema.fields (schema.toRow c))
      (first : First (fun r => ¬r.Met c) requirements r) : Judged (.error (r.failure c))
  | accepted {c : C} (exact : settings.names.Perm schema.names)
      (described : Row.Describes settings schema.fields (schema.toRow c)) (met : ∀ r ∈ requirements, r.Met c) :
      Judged (.ok c)

end Judgement

variable {schema : Schema α C} {requirements : List (Requirement α C)} {settings : Settings α}

theorem decode_of_describes (exact : settings.names.Perm schema.names) {c : C}
    (described : Row.Describes settings schema.fields (schema.toRow c)) : schema.decode settings = .ok c := by
  have refusal := Row.firstRefusal_of_suits schema.distinct_words described.suits
  have present : ∀ f ∈ schema.fields, f.name ∈ settings.names := fun f field =>
    exact.mem_iff.mpr (List.mem_map_of_mem field)
  have read := (Row.read_eq_ok schema.distinct_words present).mpr described
  simp only [decode, refusal, read, schema.ofRow_toRow]

theorem ofSettings_of_perm (exact : settings.names.Perm schema.names) :
    schema.ofSettings settings = (schema.decode settings >>= fun c => schema.validate c >>= fun _ => pure c) := by
  unfold ofSettings
  rw [Named.checkNames_of_perm exact]
  rfl

/-- Settings are answered as they are judged. -/
theorem Judged.answer (decides : Requirement.Decides requirements schema.validate) {answer : Except (Failure α) C}
    (judged : schema.Judged requirements settings answer) : schema.ofSettings settings = answer := by
  cases judged with
  | miscounted other =>
    unfold ofSettings
    rw [Named.checkNames_of_count other]
    rfl
  | missing counted first =>
    unfold ofSettings
    rw [Named.checkNames_of_missing counted first]
    rfl
  | unusable exact field first =>
    have refusal := Row.firstRefusal_of_first schema.distinct_names schema.distinct_words field first
    rw [ofSettings_of_perm exact]
    simp only [decode, refusal]
    rfl
  | outside exact described first =>
    rw [ofSettings_of_perm exact, decode_of_describes exact described]
    change (schema.validate _ >>= fun _ => pure _) = _
    rw [decides.error first]
    rfl
  | accepted exact described met =>
    rw [ofSettings_of_perm exact, decode_of_describes exact described]
    change (schema.validate _ >>= fun _ => pure _) = _
    rw [decides.ok.mpr met]
    rfl

/-- All settings are judged. As many names as there are fields, each of them present, are those of the fields. -/
theorem exists_judged (schema : Schema α C) (requirements : List (Requirement α C)) (settings : Settings α) :
    ∃ answer, schema.Judged requirements settings answer := by
  by_cases counted : settings.size = schema.names.length
  · obtain ⟨name, first⟩ | complete := First.exists_or (· ∉ settings.names) schema.names
    · exact ⟨_, .missing counted first⟩
    have present : ∀ name ∈ schema.names, name ∈ settings.names :=
      fun name member => not_not.mp (complete name member)
    have exact : settings.names.Perm schema.names := Named.names_perm schema.distinct_names counted present
    obtain ⟨⟨name, s⟩, first⟩ | suited := First.exists_or (fun e => ¬Row.Suits schema.fields e) settings.entries
    · have member : name ∈ schema.names := exact.mem_iff.mp (List.mem_map_of_mem first.mem)
      obtain ⟨f, field, rfl⟩ := List.mem_map.mp member
      exact ⟨_, .unusable exact field first⟩
    obtain ⟨row, described⟩ := Row.exists_describes_of_suits exact fun e member => not_not.mp (suited e member)
    rw [← schema.toRow_ofRow row] at described
    obtain ⟨r, first⟩ | met := First.exists_or (fun r => ¬r.Met (schema.ofRow row)) requirements
    · exact ⟨_, .outside exact described first⟩
    · exact ⟨_, .accepted exact described fun r member => not_not.mp (met r member)⟩
  · exact ⟨_, .miscounted counted⟩

theorem ofSettings_eq_iff (decides : Requirement.Decides requirements schema.validate)
    {answer : Except (Failure α) C} :
    schema.ofSettings settings = answer ↔ schema.Judged requirements settings answer := by
  refine ⟨?_, Judged.answer decides⟩
  rintro rfl
  obtain ⟨answer, judged⟩ := exists_judged schema requirements settings
  rw [judged.answer decides]
  exact judged

/-- What is accepted is described by the settings and passes the check. -/
theorem ofSettings_eq_ok (decides : Requirement.Decides requirements schema.validate) {c : C} :
    schema.ofSettings settings = .ok c ↔
      settings.names.Perm schema.names ∧ Row.Describes settings schema.fields (schema.toRow c) ∧
        schema.validate c = .ok () := by
  rw [ofSettings_eq_iff decides]
  constructor
  · intro judged
    cases judged with
    | accepted exact described met => exact ⟨exact, described, decides.ok.mpr met⟩
  · rintro ⟨exact, described, valid⟩
    exact .accepted exact described (decides.ok.mp valid)

end Schema

/-- Whatever settings a method is given, they are answered as they are judged: by their number, then by the
first name that is missing, then by the first setting that its field cannot use, then by the first requirement
that is not met. A configuration that is accepted passes the check once more. -/
theorem Variant.ofSettings_judged (variant : Variant) (settings : Settings α) :
    (∀ answer, variant.schema.ofSettings settings = answer ↔
      variant.schema.Judged variant.requirements settings answer) ∧
    ∀ c, variant.schema.ofSettings settings = .ok c → variant.schema.validate c = .ok () := by
  have decides := variant.validate_decides (α := α)
  refine ⟨fun answer => Schema.ofSettings_eq_iff decides, fun c accepted => ?_⟩
  exact ((Schema.ofSettings_eq_ok decides).mp accepted).2.2

/-- Settings of an interior-point method, in no order. -/
def barrierSettings (mu alpha beta : Setting Float) : Settings Float :=
  Named.ofList [("mu", mu), ("eps", .number 0.5), ("eps_feas", .number 0.25), ("beta", beta), ("alpha", alpha)]

/-- A whole number does for a number. Of two names that are missing the earlier field is reported, of two values
of the wrong kind the earlier name, and of two values out of range the earlier requirement. -/
theorem Variant.ofSettings_barrierSettings :
    InteriorPoint.schema.ofSettings (barrierSettings (.integer 10) (.number 0.125) (.number 0.5)) =
        .ok ⟨10, 0.5, 0.25, 0.125, 0.5⟩ ∧
      InteriorPoint.schema.validate (⟨10, 0.5, 0.25, 0.125, 0.5⟩ : InteriorPoint.Config Float) = .ok () ∧
      InteriorPoint.schema.ofSettings (Named.ofList [("nu", .number (10 : Float)), ("eps", .number 0.5),
          ("eps_feas", .number 0.25), ("beta", .number 0.5), ("gamma", .number 0.125)]) =
        .error (.missingSetting "PrimalDualInteriorPoint" "mu") ∧
      InteriorPoint.schema.ofSettings (barrierSettings (.word "ten") (.number 0.125) (.switch true)) =
        .error (.refusedSetting "PrimalDualInteriorPoint" (.wrongKind (some (.switch true)) .real)) ∧
      InteriorPoint.schema.ofSettings (barrierSettings (.integer (-1)) (.number 2) (.number 0.5)) =
        .error (.refusedSetting "mu" (.notPositive (-1))) := by
  have accepted : InteriorPoint.schema.ofSettings (barrierSettings (.integer 10) (.number 0.125) (.number 0.5)) =
      .ok ⟨10, 0.5, 0.25, 0.125, 0.5⟩ :=
    rfl
  exact ⟨accepted, (ofSettings_judged .interiorPoint _).2 _ accepted, rfl, rfl, rfl⟩

end Downhill
