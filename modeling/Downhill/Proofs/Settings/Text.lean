import Downhill.Proofs.Decimal.Literals
import Downhill.Proofs.Decimal.Shortest
import Downhill.Proofs.Doubles
import Downhill.Proofs.Named
import Downhill.SettingsText

namespace Downhill

open Json

namespace Double

theorem toList_signText (negative : Bool) : (signText negative).toList = minus negative := by
  cases negative <;> rfl

/-- A finite double is stored as a number that is no whole one. -/
theorem stored_literal {v : Float} (finite : v.isFinite = true) :
    ∃ n, Literal ((ofFloat v).text .stored).toList n ∧ n.isWhole = false := by
  obtain ⟨negative, m, e, same⟩ := isFinite_iff.mp finite
  rw [same]
  cases m with
  | zero =>
    have digit : AreDigits ['0'] := areDigits_of_all (List.cons_ne_nil _ _) rfl
    have zero : Fractional ['0', '.', '0'] := .of_point ⟨digit, Or.inl rfl⟩ digit
    have written : ((Double.finite negative 0 e).text .stored).toList = minus negative ++ ['0', '.', '0'] := by
      simp only [text, String.toList_append, toList_signText, List.append_assoc]
      rfl
    exact written ▸ zero.exists_literal negative
  | succ m =>
    have decimal := Decimal.fractional_text (Decimal.coefficient_shortest .even m.succ_pos e)
    have written : ((Double.finite negative (m + 1) e).text .stored).toList =
        minus negative ++ ((Decimal.shortest .even (m + 1) e).text .stored).toList := by
      simp only [text, String.toList_append, toList_signText]
      rfl
    exact written ▸ decimal.exists_literal negative

theorem stored_null {v : Float} (infinite : v.isFinite = false) : (ofFloat v).text .stored = "null" := by
  cases shape : ofFloat v with
  | undefined => rfl
  | infinite negative => rfl
  | finite negative m e =>
    exact absurd (isFinite_iff.mpr ⟨_, _, _, shape⟩) (Bool.eq_false_iff.mp infinite)

end Double

namespace Setting

theorem exists_item (s : Setting Float) : ∃ document, Item s.toText.toList document := by
  cases s with
  | switch on => exact ⟨_, item_bool on⟩
  | integer i =>
    obtain ⟨n, literal, _⟩ := literal_toString i.toInt
    exact ⟨_, literal.item⟩
  | number v =>
    by_cases finite : v.isFinite = true
    · obtain ⟨n, literal, _⟩ := Double.stored_literal finite
      exact ⟨_, literal.item⟩
    · refine ⟨.null, ?_⟩
      simp only [toText, Double.stored_null (Bool.eq_false_iff.mpr finite)]
      exact item_null
  | word w => exact ⟨_, item_quote w⟩

/-- The document that a setting is written as. -/
def document (s : Setting Float) : Json :=
  (Json.read s.toText).getD .null

theorem document_of_item {s : Setting Float} {d : Json} (item : Item s.toText.toList d) : s.document = d := by
  rw [document, item.read]
  rfl

theorem item_document (s : Setting Float) : Item s.toText.toList s.document := by
  obtain ⟨d, item⟩ := s.exists_item
  rw [document_of_item item]
  exact item

/-- The setting that is read where one is written. -/
def reread (s : Setting Float) : Option (Setting Float) :=
  ofJson? s.document

theorem reread_switch (on : Bool) : reread (.switch on) = some (.switch on) := by
  rw [reread, document_of_item (s := .switch on) (item_bool on)]
  rfl

theorem reread_word (w : String) : reread (.word w) = some (.word w) := by
  rw [reread, document_of_item (s := .word w) (item_quote w)]
  rfl

theorem reread_integer (i : Int64) : reread (.integer i) = some (.integer i) := by
  obtain ⟨n, literal, whole⟩ := literal_toString i.toInt
  have inside : Int64.minValue.toInt ≤ i.toInt ∧ i.toInt ≤ Int64.maxValue.toInt := ⟨i.le_toInt, i.toInt_le⟩
  rw [reread, document_of_item (s := .integer i) literal.item]
  simp only [ofJson?, whole, if_pos inside, Int64.ofInt_toInt]

/-- A finite number is read as a number, the one that its digits are read as. -/
theorem reread_number {v : Float} (finite : v.isFinite = true) :
    ∃ n, Json.read ((Double.ofFloat v).text .stored) = some (.number n) ∧
      reread (.number v) = n.toFloat?.map .number := by
  obtain ⟨n, literal, fractional⟩ := Double.stored_literal finite
  refine ⟨n, literal.item.read, ?_⟩
  have whole : n.toInt? = none := by
    simp only [Numeral.toInt?, fractional]
    rfl
  rw [reread, document_of_item (s := .number v) literal.item]
  simp only [ofJson?, whole]

theorem reread_infinite {v : Float} (infinite : v.isFinite = false) : reread (.number v) = none := by
  have item : Item (toText (.number v)).toList .null := by
    simp only [toText, Double.stored_null infinite]
    exact item_null
  rw [reread, document_of_item item]
  rfl

end Setting

section Lists

variable {β γ : Type} {f : β → Option γ} {xs : List β}

theorem mapM_eq_some {g : β → γ} (each : ∀ x ∈ xs, f x = some (g x)) : xs.mapM f = some (xs.map g) := by
  induction xs with
  | nil => rfl
  | cons x xs ih =>
    obtain ⟨here, behind⟩ := List.forall_mem_cons.mp each
    rw [List.mapM_cons, here, ih behind]
    rfl

theorem mapM_eq_none {x : β} (member : x ∈ xs) (lost : f x = none) : xs.mapM f = none := by
  induction xs with
  | nil => cases member
  | cons y xs ih =>
    rw [List.mapM_cons]
    rcases List.mem_cons.mp member with rfl | later
    · rw [lost]
      rfl
    · rw [ih later]
      cases f y <;> rfl

end Lists

/-- A double comes back from the digits that it is stored with. -/
def Double.ReadsBack (v : Float) : Prop :=
  ∀ n, Json.read ((ofFloat v).text .stored) = some (.number n) → n.toFloat? = some v

theorem Double.readsBack_of_literal {v : Float} {text : String} {n : Numeral}
    (written : (ofFloat v).text .stored = text) (literal : Literal text.toList n) (same : n.toFloat? = some v) :
    ReadsBack v := by
  intro m found
  rw [written, literal.item.read] at found
  cases found
  exact same

/-- Two settings that are equal or both numbers. -/
inductive Setting.Alike : Setting Float → Setting Float → Prop
  | refl (s : Setting Float) : Alike s s
  | numbers (v w : Float) : Alike (.number v) (.number w)

theorem Setting.reread_alike {s t : Setting Float} (found : s.reread = some t) : Alike s t := by
  cases s with
  | switch on => exact Option.some.inj ((reread_switch on).symm.trans found) ▸ .refl _
  | integer i => exact Option.some.inj ((reread_integer i).symm.trans found) ▸ .refl _
  | word w => exact Option.some.inj ((reread_word w).symm.trans found) ▸ .refl _
  | number v =>
    by_cases finite : v.isFinite = true
    · obtain ⟨n, _, same⟩ := reread_number finite
      obtain ⟨w, _, rfl⟩ := Option.map_eq_some_iff.mp (same.symm.trans found)
      exact .numbers v w
    · cases (reread_infinite (Bool.eq_false_iff.mpr finite)).symm.trans found

namespace Settings

variable {s t : Settings Float}

theorem read_toText (s : Settings Float) :
    Json.read (toText s) = some (.object (s.entries.map fun e => (e.1, e.2.document))) :=
  read_prettyObject fun e _ => e.2.item_document

/-- Written settings are read where each of them is … -/
theorem ofText_toText_of_some {g : Setting Float → Setting Float}
    (reread : ∀ e ∈ s.entries, e.2.reread = some (g e.2)) :
    ofText (toText s) = .ok (Named.ofList (s.entries.map fun e => (e.1, g e.2))) := by
  have entries : (s.entries.map fun e => (e.1, e.2.document)).mapM
      (fun m => (Setting.ofJson? m.2).map fun t => (m.1, t)) = some (s.entries.map fun e => (e.1, g e.2)) := by
    rw [List.mapM_map]
    refine mapM_eq_some fun e member => ?_
    exact Option.map_eq_some_iff.mpr ⟨_, reread e member, rfl⟩
  simp only [ofText, read_toText, entries]

/-- … and not where one of them is not. -/
theorem ofText_toText_of_none {e : String × Setting Float} (member : e ∈ s.entries) (lost : e.2.reread = none) :
    ofText (toText s) = .error .unreadable := by
  have entries : (s.entries.map fun e => (e.1, e.2.document)).mapM
      (fun m => (Setting.ofJson? m.2).map fun t => (m.1, t)) = none := by
    rw [List.mapM_map]
    exact mapM_eq_none member (Option.map_eq_none_iff.mpr lost)
  simp only [ofText, read_toText, entries]

end Settings

/-- Stored settings read back. Where all numbers are finite and come back from their digits, so do the settings,
each as what it was. Where a number is not finite, the settings are written but not read. And whatever the
digits are read as, nothing changes its kind, and nothing but numbers changes. -/
theorem Settings.ofText_toText (s : Settings Float) :
    ((∀ name v, s.find? name = some (.number v) → v.isFinite = true ∧ Double.ReadsBack v) →
      ofText (toText s) = .ok s) ∧
    (∀ name v, s.find? name = some (.number v) → v.isFinite = false → ofText (toText s) = .error .unreadable) ∧
    ∀ t, ofText (toText s) = .ok t → t.names = s.names ∧
      ∀ name a, s.find? name = some a → ∃ b, t.find? name = some b ∧ a.Alike b := by
  refine ⟨fun readable => ?_, fun name v found infinite => ?_, fun t read => ?_⟩
  · have reread : ∀ e ∈ s.entries, e.2.reread = some (id e.2) := by
      rintro ⟨name, a⟩ member
      cases a with
      | switch on => exact Setting.reread_switch on
      | integer i => exact Setting.reread_integer i
      | word w => exact Setting.reread_word w
      | number v =>
        obtain ⟨finite, back⟩ := readable name v (Named.find?_eq_some.mpr member)
        obtain ⟨n, stored, same⟩ := Setting.reread_number finite
        rw [same, back n stored]
        rfl
    have same : (s.entries.map fun e => (e.1, id e.2)) = s.entries := List.map_id s.entries
    rw [ofText_toText_of_some reread, same, s.ofList_entries]
  · exact ofText_toText_of_none (Named.find?_eq_some.mp found) (Setting.reread_infinite infinite)
  · obtain ⟨g, all⟩ : ∃ g : Setting Float → Setting Float, ∀ e ∈ s.entries, e.2.reread = some (g e.2) := by
      refine ⟨fun a => a.reread.getD a, fun e member => ?_⟩
      cases found : e.2.reread with
      | some b => simp only [found, Option.getD_some]
      | none => cases (ofText_toText_of_none member found).symm.trans read
    obtain rfl := Except.ok.inj ((ofText_toText_of_some all).symm.trans read)
    have names : (s.entries.map fun e => (e.1, g e.2)).map Prod.fst = s.names := by
      rw [List.map_map]
      rfl
    have distinct : ((s.entries.map fun e => (e.1, g e.2)).map Prod.fst).Nodup := names ▸ s.nodup_names
    refine ⟨Named.names_eq_of_perm ((Named.names_ofList distinct).trans (.of_eq names)), fun name a found => ?_⟩
    have member := Named.find?_eq_some.mp found
    have there : (name, g a) ∈ s.entries.map fun e => (e.1, g e.2) := List.mem_map.mpr ⟨_, member, rfl⟩
    exact ⟨g a, (Named.find?_ofList distinct).mpr there, Setting.reread_alike (all (name, a) member)⟩

/-- A number with a point, one with an exponent, a whole number and a word are read back; a number that is none is
not. -/
theorem Settings.ofText_toText_record :
    let kept : Settings Float :=
      Named.ofList [("dim", .integer 4), ("eps", .number 1e20), ("lr", .number 4.0), ("mode", .word "a\nb")]
    let lost : Settings Float := Named.ofList [("lr", .number (0.0 / 0.0))]
    ofText (toText kept) = .ok kept ∧ ofText (toText lost) = .error .unreadable := by
  intro kept lost
  have four : Double.ReadsBack 4.0 := by
    have whole : AreWhole ['4'] := ⟨areDigits_of_all (List.cons_ne_nil _ _) rfl, by decide⟩
    have point : AreDigits ['0'] := areDigits_of_all (List.cons_ne_nil _ _) rfl
    have literal : Literal "4.0".toList ⟨false, [4], [0], none⟩ := .mk false (.mk whole (.point point) .none)
    exact Double.readsBack_of_literal (by decide +kernel) literal (by decide +kernel)
  have large : Double.ReadsBack 1e20 := by
    have whole : AreWhole ['1'] := ⟨areDigits_of_all (List.cons_ne_nil _ _) rfl, by decide⟩
    have power : AreDigits ['2', '0'] := areDigits_of_all (List.cons_ne_nil _ _) rfl
    have literal : Literal "1e+20".toList ⟨false, [1], [], some 20⟩ := .mk false (.mk whole .none (.plus power))
    exact Double.readsBack_of_literal (by decide +kernel) literal (by decide +kernel)
  constructor
  · refine (ofText_toText kept).1 fun name v found => ?_
    have entries : kept.entries =
        [("dim", .integer 4), ("eps", .number 1e20), ("lr", .number 4.0), ("mode", .word "a\nb")] := by
      decide +kernel
    have member := Named.find?_eq_some.mp found
    rw [entries] at member
    simp only [List.mem_cons, Prod.mk.injEq, reduceCtorEq, and_false, false_or, Setting.number.injEq,
      List.not_mem_nil, or_false] at member
    rcases member with ⟨_, rfl⟩ | ⟨_, rfl⟩
    · exact ⟨by decide +kernel, large⟩
    · exact ⟨by decide +kernel, four⟩
  · exact (ofText_toText lost).2.1 "lr" (0.0 / 0.0) (by decide +kernel) (by decide +kernel)

end Downhill
