namespace Downhill

/-- Values by name, the names strictly increasing; so two collections with the same values by name are equal. -/
@[ext]
structure Named (β : Type) where
  entries : List (String × β)
  ordered : entries.Pairwise fun a b => a.1 < b.1

namespace Named

variable {β γ : Type}

def empty : Named β where
  entries := []
  ordered := .nil

instance : EmptyCollection (Named β) :=
  ⟨empty⟩

instance : Inhabited (Named β) :=
  ⟨empty⟩

def size (c : Named β) : Nat :=
  c.entries.length

def names (c : Named β) : List String :=
  c.entries.map Prod.fst

/-- The value under a name. -/
def find? (c : Named β) (name : String) : Option β :=
  (c.entries.find? (·.1 = name)).map Prod.snd

def contains (c : Named β) (name : String) : Bool :=
  c.entries.any (·.1 = name)

/-- An entry put in its place, made from the entry of the same name if there is one. -/
def place (name : String) (f : Option β → β) : List (String × β) → List (String × β)
  | [] => [(name, f none)]
  | (other, v) :: rest =>
    if name < other then (name, f none) :: (other, v) :: rest
    else if other < name then (other, v) :: place name f rest
    else (other, f (some v)) :: rest

theorem mem_place {name : String} {f : Option β → β} {es : List (String × β)} {e : String × β}
    (member : e ∈ place name f es) : e.1 = name ∨ e ∈ es := by
  induction es with
  | nil => exact Or.inl (congrArg Prod.fst (List.mem_singleton.mp member))
  | cons first rest ih =>
    unfold place at member
    split at member
    · exact (List.mem_cons.mp member).imp_left (congrArg Prod.fst)
    · split at member
      · rcases List.mem_cons.mp member with same | later
        · exact Or.inr (same ▸ List.mem_cons_self)
        · exact (ih later).imp_right (List.mem_cons_of_mem _)
      · rename_i notFront notBehind
        rcases List.mem_cons.mp member with same | later
        · exact Or.inl (same ▸ String.le_antisymm notFront notBehind)
        · exact Or.inr (List.mem_cons_of_mem _ later)

theorem place_ordered {name : String} {f : Option β → β} {es : List (String × β)}
    (ordered : es.Pairwise fun a b => a.1 < b.1) :
    (place name f es).Pairwise fun a b => a.1 < b.1 := by
  induction es with
  | nil => exact List.pairwise_singleton _ _
  | cons first rest ih =>
    obtain ⟨below, others⟩ := List.pairwise_cons.mp ordered
    unfold place
    split
    · rename_i front
      refine List.pairwise_cons.mpr ⟨fun e member => ?_, ordered⟩
      rcases List.mem_cons.mp member with same | later
      · exact same ▸ front
      · exact String.lt_trans front (below e later)
    · split
      · rename_i behind
        refine List.pairwise_cons.mpr ⟨fun e member => ?_, ih others⟩
        rcases mem_place member with same | later
        · exact same ▸ behind
        · exact below e later
      · exact List.pairwise_cons.mpr ⟨below, others⟩

/-- The value under a name made anew from what it was. -/
def alter (c : Named β) (name : String) (f : Option β → β) : Named β where
  entries := place name f c.entries
  ordered := place_ordered c.ordered

def insert (c : Named β) (name : String) (v : β) : Named β :=
  c.alter name fun _ => v

def erase (c : Named β) (name : String) : Named β where
  entries := c.entries.filter (·.1 ≠ name)
  ordered := c.ordered.filter _

/-- The collection of some entries, of two with one name the later. -/
def ofList (es : List (String × β)) : Named β :=
  es.foldl (fun c e => c.insert e.1 e.2) ∅

end Named

end Downhill
