import Downhill.History

namespace Downhill

namespace Named

variable {β : Type}

theorem find?_place (name other : String) (f : Option β → β) {es : List (String × β)}
    (ordered : es.Pairwise fun a b => a.1 < b.1) :
    ((place name f es).find? (·.1 = other)).map Prod.snd =
      if other = name then some (f ((es.find? (·.1 = name)).map Prod.snd))
      else (es.find? (·.1 = other)).map Prod.snd := by
  induction es with
  | nil =>
    by_cases same : other = name
    · simp [place, same]
    · simp [place, same, Ne.symm same]
  | cons first rest ih =>
    obtain ⟨key, v⟩ := first
    obtain ⟨below, others⟩ := List.pairwise_cons.mp ordered
    unfold place
    split
    · rename_i front
      have absent : ((key, v) :: rest).find? (·.1 = name) = none := by
        refine List.find?_eq_none.mpr fun e member found => ?_
        have same : e.1 = name := of_decide_eq_true found
        rcases List.mem_cons.mp member with rfl | later
        · exact String.lt_irrefl name (same ▸ front)
        · exact String.lt_irrefl name (String.lt_trans front (same ▸ below e later))
      by_cases same : other = name
      · simp [same, absent]
      · simp [same, List.find?_cons, Ne.symm same]
    · split
      · rename_i behind
        have apart : key ≠ name := fun same => String.lt_irrefl name (same ▸ behind)
        by_cases here : key = other
        · subst here
          simp [apart]
        · simp [here, apart, ih others]
      · rename_i notFront notBehind
        have same : key = name := String.le_antisymm notFront notBehind
        subst same
        by_cases here : other = key
        · simp [here]
        · simp [here, Ne.symm here]

theorem find?_alter (c : Named β) (name other : String) (f : Option β → β) :
    (c.alter name f).find? other =
      if other = name then some (f (c.find? name)) else c.find? other :=
  find?_place name other f c.ordered

end Named

namespace History

variable {α : Type} {places : Nat}

@[simp]
theorem at?_empty (name : String) (j : Nat) : (empty : History α places).at? name j = none :=
  rfl

/-- Outside the series nothing is recorded. -/
theorem at?_of_le {h : History α places} {name : String} {j : Nat} (outside : places ≤ j) :
    h.at? name j = none := by
  unfold at?
  cases h.series.find? name with
  | none => rfl
  | some values => exact Vector.getElem?_eq_none outside

variable [Zero α]

theorem at?_record {h : History α places} {name : String} {place : Nat} {v : α}
    (inside : place < places) (other : String) {j : Nat} (within : j < places) :
    (h.record name place v).at? other j =
      if other = name then (if j = place then some v else some ((h.at? name j).getD 0))
      else h.at? other j := by
  simp only [record, dif_pos inside, at?, Named.find?_alter]
  by_cases same : other = name
  · subst same
    by_cases here : j = place
    · subst here
      simp [within]
    · cases found : h.series.find? other with
      | none => simp [here, Ne.symm here, within]
      | some values => simp [here, Ne.symm here, within]
  · simp [same]

/-- Values under different names, recorded at one place. -/
theorem at?_recordAll {h : History α places} {place : Nat} (inside : place < places)
    {values : List (String × α)} (distinct : (values.map Prod.fst).Nodup) (other : String) {j : Nat}
    (within : j < places) :
    (∀ v, (other, v) ∈ values → (h.recordAll place values).at? other j =
      if j = place then some v else some ((h.at? other j).getD 0)) ∧
    (other ∉ values.map Prod.fst → (h.recordAll place values).at? other j = h.at? other j) := by
  induction values generalizing h with
  | nil => exact ⟨fun _ member => absurd member List.not_mem_nil, fun _ => rfl⟩
  | cons first rest ih =>
    obtain ⟨name, w⟩ := first
    obtain ⟨fresh, others⟩ := List.nodup_cons.mp distinct
    obtain ⟨recorded, untouched⟩ := ih (h := h.record name place w) others
    have unfolded : h.recordAll place ((name, w) :: rest) =
        (h.record name place w).recordAll place rest := rfl
    rw [unfolded]
    refine ⟨fun v member => ?_, fun absent => ?_⟩
    · rcases List.mem_cons.mp member with same | later
      · cases same
        rw [untouched fresh, at?_record inside _ within, if_pos rfl]
      · have apart : other ≠ name := by
          rintro rfl
          exact fresh (List.mem_map.mpr ⟨_, later, rfl⟩)
        rw [recorded v later, at?_record inside _ within, if_neg apart]
    · rw [List.map_cons, List.mem_cons, not_or] at absent
      rw [untouched absent.2, at?_record inside _ within, if_neg absent.1]

end History

end Downhill
