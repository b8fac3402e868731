import Downhill.Proofs.Named
import Downhill.Proofs.Outcome
import Downhill.Schema

namespace Downhill

variable {α : Type} [Scalar α]

namespace Kind

/-- The value that a setting gives to a field of the kind. A number that is not finite gives none. -/
inductive Means : (kind : Kind) → Setting α → kind.Value α → Prop
  | whole (i : Int64) : Means .real (.integer i) ((i.toInt : Int) : α)
  | number {v : α} (finite : Scalar.isFinite v = true) : Means .real (.number v) v
  | count {i : Int64} (natural : 0 ≤ i) : Means .count (.integer i) i.toUInt64
  | switch (on : Bool) : Means .switch (.switch on) on
  | word {words : List String} (i : Fin words.length) : Means (.choice words) (.word (wordAt words i)) i

/-- The setting gives a value to a field of the kind. -/
def Usable (kind : Kind) (s : Setting α) : Prop :=
  ∃ v, kind.Means s v

/-- What is said of a setting that gives no value to a field of the kind. -/
def objection (kind : Kind) (s : Setting α) : Reason α :=
  match kind, s with
  | .count, .integer i => .negative i
  | .choice words, .word w => .unknownWord w words
  | kind, s => .wrongKind (present s) kind

theorem wordAt_inj {words : List String} (distinct : words.Nodup) {i j : Fin words.length} :
    wordAt words i = wordAt words j ↔ i = j :=
  ⟨fun same => Fin.ext (distinct.getElem_inj_iff.mp same), congrArg _⟩

theorem finIdxOf?_wordAt {words : List String} (distinct : words.Nodup) (i : Fin words.length) :
    words.finIdxOf? (wordAt words i) = some i := by
  refine List.finIdxOf?_eq_some_iff.mpr ⟨rfl, fun j before same => ?_⟩
  exact absurd ((wordAt_inj distinct).mp same) (Fin.ne_of_lt before)

/-- Reading finds the value that the setting gives. -/
theorem read_of_means {kind : Kind} (distinct : kind.words.Nodup) {s : Setting α} {v : kind.Value α}
    (means : kind.Means s v) : kind.read (present s) = .ok v := by
  cases means with
  | whole i => rfl
  | number finite => simp only [present, if_pos finite, read]
  | count natural => exact if_neg (Int64.not_lt.mpr natural)
  | switch on => rfl
  | @word words i =>
    have distinct : words.Nodup := distinct
    simp only [present, read, finIdxOf?_wordAt distinct i]

/-- Only a real field takes a number. -/
theorem read_number {kind : Kind} (other : kind ≠ .real) (v : α) :
    kind.read (present (.number v)) = .error (kind.objection (.number v)) := by
  have found : present (.number v) = some (.number v) ∨ present (.number v) = none := by
    by_cases finite : Scalar.isFinite v = true
    · exact Or.inl (if_pos finite)
    · exact Or.inr (if_neg finite)
  cases kind with
  | real => exact absurd rfl other
  | count => rcases found with found | found <;> simp only [read, objection, found]
  | switch => rcases found with found | found <;> simp only [read, objection, found]
  | choice words => rcases found with found | found <;> simp only [read, objection, found]

/-- Where reading finds a value, the setting gives it, and where it finds none, it objects. -/
theorem read_cases (kind : Kind) (s : Setting α) :
    (∃ v, kind.read (present s) = .ok v ∧ kind.Means s v) ∨ kind.read (present s) = .error (kind.objection s) := by
  cases kind with
  | real =>
    cases s with
    | integer i => exact Or.inl ⟨_, rfl, .whole i⟩
    | number v =>
      by_cases finite : Scalar.isFinite v = true
      · exact Or.inl ⟨v, by simp only [present, if_pos finite, read], .number finite⟩
      · exact Or.inr (by simp only [present, if_neg finite, read, objection])
    | switch on => exact Or.inr rfl
    | word w => exact Or.inr rfl
  | count =>
    cases s with
    | integer i =>
      by_cases negative : i < 0
      · exact Or.inr (if_pos negative)
      · exact Or.inl ⟨_, if_neg negative, .count (Int64.not_lt.mp negative)⟩
    | number v => exact Or.inr (read_number (by nofun) v)
    | switch on => exact Or.inr rfl
    | word w => exact Or.inr rfl
  | switch =>
    cases s with
    | switch on => exact Or.inl ⟨on, rfl, .switch on⟩
    | number v => exact Or.inr (read_number (by nofun) v)
    | integer i => exact Or.inr rfl
    | word w => exact Or.inr rfl
  | choice words =>
    cases s with
    | word w =>
      cases found : words.finIdxOf? w with
      | none => exact Or.inr (by simp only [present, read, found, objection])
      | some i =>
        obtain ⟨same, _⟩ := List.finIdxOf?_eq_some_iff.mp found
        have spelled : wordAt words i = w := same
        subst spelled
        exact Or.inl ⟨i, by simp only [present, read, found], .word i⟩
    | number v => exact Or.inr (read_number (by nofun) v)
    | switch on => exact Or.inr rfl
    | integer i => exact Or.inr rfl

theorem read_eq_ok {kind : Kind} (distinct : kind.words.Nodup) {s : Setting α} {v : kind.Value α} :
    kind.read (present s) = .ok v ↔ kind.Means s v := by
  refine ⟨fun found => ?_, read_of_means distinct⟩
  obtain ⟨w, made, means⟩ | objected := read_cases kind s
  · obtain rfl := Except.ok.inj (made.symm.trans found)
    exact means
  · cases objected.symm.trans found

theorem read_eq_error {kind : Kind} (distinct : kind.words.Nodup) {s : Setting α} {reason : Reason α} :
    kind.read (present s) = .error reason ↔ ¬kind.Usable s ∧ reason = kind.objection s := by
  constructor
  · intro refused
    obtain ⟨v, made, _⟩ | objected := read_cases kind s
    · cases made.symm.trans refused
    · refine ⟨fun ⟨v, means⟩ => ?_, Except.error.inj (refused.symm.trans objected)⟩
      cases (read_of_means distinct means).symm.trans refused
  · rintro ⟨unusable, rfl⟩
    obtain ⟨v, _, means⟩ | objected := read_cases kind s
    · exact absurd ⟨v, means⟩ unusable
    · exact objected

end Kind

namespace Row

variable {settings : Settings α} {fields : List Field}

/-- The settings give to each field the value that it has in the row. -/
def Describes (settings : Settings α) : (fields : List Field) → Row α fields → Prop
  | [], _ => True
  | f :: fs, (v, rest) => (∃ s, settings.find? f.name = some s ∧ f.kind.Means s v) ∧ Describes settings fs rest

theorem read_eq_ok (distinct : ∀ f ∈ fields, f.kind.words.Nodup) (present : ∀ f ∈ fields, f.name ∈ settings.names)
    {row : Row α fields} : read settings fields = .ok row ↔ Describes settings fields row := by
  induction fields with
  | nil => exact iff_of_true rfl trivial
  | cons f fs ih =>
    obtain ⟨words, others⟩ := List.forall_mem_cons.mp distinct
    obtain ⟨here, behind⟩ := List.forall_mem_cons.mp present
    obtain ⟨s, found⟩ := Named.exists_find? here
    obtain ⟨v, rest⟩ := row
    have first (w : f.kind.Value α) :
        f.kind.read ((settings.find? f.name).bind Kind.present) = .ok w ↔
          ∃ s, settings.find? f.name = some s ∧ f.kind.Means s w := by
      rw [found, Option.bind_some, Kind.read_eq_ok words]
      exact ⟨fun means => ⟨s, rfl, means⟩, fun ⟨_, same, means⟩ => Option.some.inj same ▸ means⟩
    refine Outcome.bind_eq_ok.trans ?_
    simp only [Outcome.bind_eq_ok, Outcome.pure_eq_ok, Describes, first, ih others behind]
    constructor
    · rintro ⟨w, means, others, rest, same⟩
      cases same
      exact ⟨means, rest⟩
    · rintro ⟨means, rest⟩
      exact ⟨v, means, _, rest, rfl⟩

/-- There is a row that the settings describe exactly where every field has a setting that it can use. -/
theorem exists_describes (usable : ∀ f ∈ fields, ∃ s, settings.find? f.name = some s ∧ f.kind.Usable s) :
    ∃ row, Describes settings fields row := by
  induction fields with
  | nil => exact ⟨(), trivial⟩
  | cons f fs ih =>
    obtain ⟨⟨s, found, v, means⟩, others⟩ := List.forall_mem_cons.mp usable
    obtain ⟨rest, described⟩ := ih others
    exact ⟨(v, rest), ⟨s, found, means⟩, described⟩

theorem Describes.usable {row : Row α fields} (described : Describes settings fields row) {f : Field}
    (member : f ∈ fields) {s : Setting α} (found : settings.find? f.name = some s) : f.kind.Usable s := by
  induction fields with
  | nil => cases member
  | cons g fs ih =>
    obtain ⟨v, rest⟩ := row
    obtain ⟨⟨t, there, means⟩, others⟩ := described
    rcases List.mem_cons.mp member with rfl | later
    · exact ⟨v, Option.some.inj (there.symm.trans found) ▸ means⟩
    · exact ih others later

end Row

end Downhill
