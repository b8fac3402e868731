import Mathlib.Data.List.Nodup
import Mathlib.Data.List.Perm.Subperm
import Downhill.Proofs.Run.Series

namespace Downhill.Named

variable {β γ : Type}

theorem ordered_names (c : Named β) : c.names.Pairwise (· < ·) :=
  List.pairwise_map.mpr c.ordered

theorem nodup_names (c : Named β) : c.names.Nodup := by
  refine c.ordered_names.imp ?_
  rintro a _ below rfl
  exact String.lt_irrefl a below

theorem nodup_entries (c : Named β) : c.entries.Nodup :=
  List.Nodup.of_map Prod.fst c.nodup_names

theorem length_names (c : Named β) : c.names.length = c.size :=
  List.length_map _

theorem find?_eq_some {c : Named β} {name : String} {v : β} : c.find? name = some v ↔ (name, v) ∈ c.entries := by
  constructor
  · intro found
    obtain ⟨⟨key, w⟩, here, rfl⟩ := Option.map_eq_some_iff.mp found
    obtain rfl : key = name := by simpa using List.find?_some here
    exact List.mem_of_find?_eq_some here
  · intro member
    cases here : c.entries.find? (·.1 = name) with
    | none => simpa using List.find?_eq_none.mp here _ member
    | some e =>
      have same : e.1 = name := by simpa using List.find?_some here
      obtain rfl : e = (name, v) :=
        List.inj_on_of_nodup_map c.nodup_names (List.mem_of_find?_eq_some here) member same
      simp [find?, here]

theorem exists_find? {c : Named β} {name : String} (member : name ∈ c.names) : ∃ v, c.find? name = some v := by
  obtain ⟨⟨_, v⟩, present, rfl⟩ := List.mem_map.mp member
  exact ⟨v, find?_eq_some.mpr present⟩

theorem mem_names_of_find? {c : Named β} {name : String} {v : β} (found : c.find? name = some v) : name ∈ c.names :=
  List.mem_map.mpr ⟨_, find?_eq_some.mp found, rfl⟩

theorem find?_eq_none {c : Named β} {name : String} : c.find? name = none ↔ name ∉ c.names := by
  constructor
  · rintro absent member
    obtain ⟨v, found⟩ := exists_find? member
    cases absent.symm.trans found
  · intro absent
    cases found : c.find? name with
    | none => rfl
    | some v => exact absurd (mem_names_of_find? found) absent

theorem contains_iff {c : Named β} {name : String} : c.contains name = true ↔ name ∈ c.names := by
  simp [contains, names]

/-- The same names are in the same order. -/
theorem names_eq_of_perm {c : Named β} {d : Named γ} (perm : c.names.Perm d.names) : c.names = d.names := by
  refine perm.eq_of_pairwise (fun a b _ _ below above => ?_) c.ordered_names d.ordered_names
  exact absurd (String.lt_trans below above) (String.lt_irrefl _)

/-- Two collections in which the same is found under every name are one. -/
theorem ext_find? {c d : Named β} (same : ∀ name, c.find? name = d.find? name) : c = d := by
  have members : ∀ e, e ∈ c.entries ↔ e ∈ d.entries := by
    rintro ⟨name, v⟩
    rw [← find?_eq_some, ← find?_eq_some, same]
  have perm := (List.perm_ext_iff_of_nodup c.nodup_entries d.nodup_entries).mpr members
  refine Named.ext (perm.eq_of_pairwise (fun a b _ _ below above => ?_) c.ordered d.ordered)
  exact absurd (String.lt_trans below above) (String.lt_irrefl _)

/-- As many names as are asked for, each of them present, are exactly those. -/
theorem names_perm {c : Named β} {wanted : List String} (distinct : wanted.Nodup) (counted : c.size = wanted.length)
    (present : ∀ name ∈ wanted, name ∈ c.names) : c.names.Perm wanted := by
  have inside : wanted.Subperm c.names := List.subperm_of_subset distinct present
  exact (inside.perm_of_length_le (Nat.le_of_eq (c.length_names.trans counted))).symm

theorem find?_insert (c : Named β) (name other : String) (v : β) :
    (c.insert name v).find? other = if other = name then some v else c.find? other :=
  find?_alter c name other _

/-- Entries under different names are all found. -/
theorem find?_ofList {es : List (String × β)} (distinct : (es.map Prod.fst).Nodup) {name : String} {v : β} :
    (ofList es).find? name = some v ↔ (name, v) ∈ es := by
  -- On the entries, with any collection that has none of their names to start from.
  have inserted : ∀ c : Named β, (∀ e ∈ es, e.1 ∉ c.names) →
      ((es.foldl (fun c e => c.insert e.1 e.2) c).find? name = some v ↔
        (name, v) ∈ es ∨ c.find? name = some v) := by
    induction es with
    | nil => simp
    | cons first rest ih =>
      intro c fresh
      obtain ⟨absent, others⟩ := List.nodup_cons.mp distinct
      have apart : ∀ e ∈ rest, e.1 ∉ (c.insert first.1 first.2).names := by
        intro e member
        have other : e.1 ≠ first.1 := fun same => absent (List.mem_map.mpr ⟨e, member, same⟩)
        rw [← find?_eq_none, find?_insert, if_neg other, find?_eq_none]
        exact fresh e (List.mem_cons_of_mem _ member)
      rw [List.foldl_cons, ih others _ apart, find?_insert, List.mem_cons]
      by_cases here : name = first.1
      · subst here
        have gone : ¬c.find? first.1 = some v :=
          fun found => fresh first List.mem_cons_self (mem_names_of_find? found)
        have later : (first.1, v) ∉ rest := fun member => absent (List.mem_map.mpr ⟨_, member, rfl⟩)
        simp [later, gone, Prod.ext_iff, eq_comm]
      · simp [here, Prod.ext_iff]
  have nowhere : ¬(∅ : Named β).find? name = some v := fun found => nomatch found
  exact (inserted ∅ fun _ _ member => nomatch member).trans (or_iff_left nowhere)

theorem ofList_entries (c : Named β) : ofList c.entries = c :=
  ext_find? fun _ => Option.ext fun _ => (find?_ofList c.nodup_names).trans find?_eq_some.symm

theorem names_ofList {es : List (String × β)} (distinct : (es.map Prod.fst).Nodup) :
    (ofList es).names.Perm (es.map Prod.fst) := by
  refine (List.perm_ext_iff_of_nodup (nodup_names _) distinct).mpr fun name => ?_
  constructor
  · intro member
    obtain ⟨v, found⟩ := exists_find? member
    exact List.mem_map.mpr ⟨_, (find?_ofList distinct).mp found, rfl⟩
  · intro member
    obtain ⟨⟨_, v⟩, present, rfl⟩ := List.mem_map.mp member
    exact mem_names_of_find? ((find?_ofList distinct).mpr present)

end Downhill.Named
