/-!
# Lists sorted by a text key

Finite maps from texts, as lists of entries whose keys ascend: each map then has one list. Keys
compare by code point, which is also the order of their UTF-8 bytes. The main statements are
`Ascending.insert`, `lookup_insert` and `ofList_eq_self`: a list that ascends is its own map.
-/

namespace Chronicle.Keyed

variable {α : Type}

/-- The keys ascend strictly, so none occurs twice. -/
def Ascending (entries : List (String × α)) : Prop :=
  entries.Pairwise (·.1 < ·.1)

/-- Puts a value under a key, in place of any value it had. -/
def insert (key : String) (value : α) : List (String × α) → List (String × α)
  | [] => [(key, value)]
  | entry :: rest =>
    if key < entry.1 then (key, value) :: entry :: rest
    else if key = entry.1 then (key, value) :: rest
    else entry :: insert key value rest

/-- The map of a list of entries, where a later entry replaces an earlier one of the same key. -/
def ofList (entries : List (String × α)) : List (String × α) :=
  entries.foldl (fun map entry ↦ insert entry.1 entry.2 map) []

/-- The value under a key. -/
def lookup (key : String) : List (String × α) → Option α
  | [] => none
  | entry :: rest => if key = entry.1 then some entry.2 else lookup key rest

/-! ### Order of keys -/

theorem key_lt_of_not_lt {a b : String} (h : ¬ a < b) (hne : ¬ a = b) : b < a := by
  rcases String.le_total a b with hab | hba
  · exact absurd (Std.lt_of_le_of_ne hab hne) h
  · exact Std.lt_of_le_of_ne hba (Ne.symm hne)

theorem mem_insert {key : String} {value : α} {entries : List (String × α)} {e : String × α}
    (h : e ∈ insert key value entries) : e = (key, value) ∨ e ∈ entries := by
  induction entries with
  | nil => simpa [insert] using h
  | cons x rest ih =>
    unfold insert at h
    split at h
    · simpa using h
    · split at h
      · rcases List.mem_cons.1 h with h | h
        · exact .inl h
        · exact .inr (List.mem_cons_of_mem _ h)
      · rcases List.mem_cons.1 h with h | h
        · exact .inr (h ▸ List.mem_cons_self)
        · exact (ih h).imp id (List.mem_cons_of_mem _)

theorem Ascending.insert {entries : List (String × α)} (h : Ascending entries) (key : String)
    (value : α) : Ascending (insert key value entries) := by
  induction entries with
  | nil => simp [Keyed.insert, Ascending]
  | cons x rest ih =>
    have hx : ∀ e ∈ rest, x.1 < e.1 := fun e he ↦ List.rel_of_pairwise_cons h he
    have hrest : Ascending rest := List.Pairwise.of_cons h
    unfold Keyed.insert
    split
    case isTrue hlt =>
      refine List.Pairwise.cons (fun e he ↦ ?_) h
      rcases List.mem_cons.1 he with rfl | he
      · exact hlt
      · exact String.lt_trans hlt (hx e he)
    case isFalse hlt =>
      split
      case isTrue heq =>
        exact List.Pairwise.cons (fun e he ↦ heq ▸ hx e he) hrest
      case isFalse hne =>
        refine List.Pairwise.cons (fun e he ↦ ?_) (ih hrest)
        rcases mem_insert he with rfl | he
        · exact key_lt_of_not_lt hlt hne
        · exact hx e he

theorem ascending_ofList (entries : List (String × α)) : Ascending (ofList entries) := by
  suffices ∀ map : List (String × α), Ascending map →
      Ascending (entries.foldl (fun map entry ↦ insert entry.1 entry.2 map) map) from
    this [] List.Pairwise.nil
  induction entries with
  | nil => exact fun _ h ↦ h
  | cons e rest ih => exact fun map h ↦ ih _ (h.insert e.1 e.2)

/-- A list ascends if the list of its keys does. -/
theorem ascending_of_keys {entries : List (String × α)} {keys : List String}
    (hkeys : keys.Pairwise (· < ·)) (h : entries.map (·.1) = keys) : Ascending entries :=
  List.pairwise_map.1 (h ▸ hkeys)

/-! ### Looking up -/

/-- A value put under a key is found there, and the other keys keep theirs. -/
theorem lookup_insert (key k : String) (value : α) (entries : List (String × α)) :
    lookup k (insert key value entries) = if k = key then some value else lookup k entries := by
  induction entries with
  | nil => simp [insert, lookup]
  | cons x rest ih => grind [insert, lookup]

/-- A key above all others goes to the end. -/
theorem insert_of_above {key : String} {entries : List (String × α)}
    (h : ∀ e ∈ entries, e.1 < key) (value : α) :
    insert key value entries = entries ++ [(key, value)] := by
  induction entries with
  | nil => rfl
  | cons x rest ih =>
    have hx := h x List.mem_cons_self
    have hlt : ¬ key < x.1 := fun hk ↦ String.lt_irrefl _ (String.lt_trans hk hx)
    have hne : ¬ key = x.1 := fun hk ↦ String.lt_irrefl _ (hk ▸ hx)
    simp [insert, hlt, hne, ih fun e he ↦ h e (List.mem_cons_of_mem _ he)]

/-- A list whose keys ascend is its own map. -/
theorem ofList_eq_self {entries : List (String × α)} (h : Ascending entries) :
    ofList entries = entries := by
  suffices ∀ map : List (String × α), Ascending (map ++ entries) →
      entries.foldl (fun map entry ↦ insert entry.1 entry.2 map) map = map ++ entries by
    exact this [] h
  induction entries with
  | nil => simp
  | cons e rest ih =>
    intro map hmap
    have habove : ∀ x ∈ map, x.1 < e.1 := fun x hx ↦
      (List.pairwise_append.1 hmap).2.2 x hx e List.mem_cons_self
    have hrest := ih (List.Pairwise.of_cons h) (map ++ [(e.1, e.2)]) (by simpa using hmap)
    rw [List.foldl_cons, insert_of_above habove, hrest]
    simp

end Chronicle.Keyed
