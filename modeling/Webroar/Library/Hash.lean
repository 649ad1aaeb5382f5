import Mathlib.Algebra.BigOperators.Group.Finset.Basic

/-! # Hashes that keep the order of their keys

A key that is set again keeps its place, a new one goes to the end. What the values of a hash add up
to changes by what the value of one key does.
-/

/-- Values under keys, in the order in which the keys were first set. -/
structure Hash (κ ν : Type) where
  entries : List (κ × ν)
  nodup : (entries.map Prod.fst).Nodup

namespace Hash

variable {κ ν ω : Type}

/-- No keys. -/
def empty : Hash κ ν := ⟨[], List.nodup_nil⟩

/-- The keys. -/
def keys (hash : Hash κ ν) : List κ := hash.entries.map Prod.fst

/-- Each value is replaced, its key stays. -/
def map (f : κ → ν → ω) (hash : Hash κ ν) : Hash κ ω where
  entries := hash.entries.map fun entry => (entry.1, f entry.1 entry.2)
  nodup := by
    rw [List.map_map]
    exact hash.nodup

/-- What the values add up to, when each one counts for `f`. -/
def sum {M : Type} [Zero M] [Add M] (f : κ → ν → M) (hash : Hash κ ν) : M :=
  (hash.entries.map fun entry => f entry.1 entry.2).sum

/-- The keys that pass the test, with their values. -/
def filter (p : κ → Bool) (hash : Hash κ ν) : Hash κ ν where
  entries := hash.entries.filter fun entry => p entry.1
  nodup := hash.nodup.sublist (List.filter_sublist.map _)

theorem filter_eq_self {p : κ → Bool} {hash : Hash κ ν} (all : ∀ key ∈ hash.keys, p key = true) :
    hash.filter p = hash := by
  obtain ⟨entries, nodup⟩ := hash
  have same : entries.filter (fun entry => p entry.1) = entries := by
    apply List.filter_eq_self.mpr
    intro entry member
    exact all entry.1 (List.mem_map_of_mem member)
  simp only [filter, same]

variable [DecidableEq κ]

/-- The value that is first under a key. -/
def find (key : κ) : List (κ × ν) → Option ν
  | [] => none
  | entry :: rest => if entry.1 = key then some entry.2 else find key rest

/-- The value of a key is replaced, or put behind the others. -/
def place (key : κ) (value : ν) : List (κ × ν) → List (κ × ν)
  | [] => [(key, value)]
  | entry :: rest => if entry.1 = key then (key, value) :: rest else entry :: place key value rest

theorem keys_place (key : κ) (value : ν) (entries : List (κ × ν)) :
    (place key value entries).map Prod.fst =
      if key ∈ entries.map Prod.fst then entries.map Prod.fst
      else entries.map Prod.fst ++ [key] := by
  induction entries with
  | nil => simp [place]
  | cons entry rest ih =>
      rw [place]
      by_cases same : entry.1 = key
      · simp [same]
      · have other : key ≠ entry.1 := fun equal => same equal.symm
        simp only [if_neg same, List.map_cons, ih, List.mem_cons, other, false_or]
        split
        · rfl
        · rfl

/-- The value of a key. -/
def get (hash : Hash κ ν) (key : κ) : Option ν := find key hash.entries

/-- The value of a key is set. -/
def set (hash : Hash κ ν) (key : κ) (value : ν) : Hash κ ν where
  entries := place key value hash.entries
  nodup := by
    rw [keys_place]
    split
    case isTrue => exact hash.nodup
    case isFalse absent =>
      refine List.nodup_append.mpr ⟨hash.nodup, by simp, ?_⟩
      intro other member last same equal
      rw [List.mem_singleton.mp same] at equal
      rw [equal] at member
      exact absent member

theorem find_place (key other : κ) (value : ν) (entries : List (κ × ν)) :
    find other (place key value entries) =
      if key = other then some value else find other entries := by
  induction entries with
  | nil => rfl
  | cons entry rest ih =>
      rw [place]
      by_cases same : entry.1 = key
      · rw [if_pos same, find, find]
        by_cases equal : key = other
        · rw [if_pos equal, if_pos equal]
        · have apart : ¬ entry.1 = other := by
            rw [same]
            exact equal
          rw [if_neg equal, if_neg equal, if_neg apart]
      · rw [if_neg same, find, find, ih]
        by_cases equal : entry.1 = other
        · have apart : ¬ key = other := by
            intro equal'
            exact same (equal.trans equal'.symm)
          rw [if_pos equal, if_neg apart, if_pos equal]
        · rw [if_neg equal, if_neg equal]

@[simp] theorem get_empty (key : κ) : (empty : Hash κ ν).get key = none := rfl

theorem get_set (hash : Hash κ ν) (key other : κ) (value : ν) :
    (hash.set key value).get other = if key = other then some value else hash.get other :=
  find_place key other value hash.entries

theorem find_map (f : κ → ν → ω) (key : κ) (entries : List (κ × ν)) :
    find key (entries.map fun entry => (entry.1, f entry.1 entry.2)) =
      (find key entries).map (f key) := by
  induction entries with
  | nil => rfl
  | cons entry rest ih =>
      rw [List.map_cons, find, find]
      by_cases same : entry.1 = key
      · rw [if_pos same, if_pos same, same, Option.map_some]
      · rw [if_neg same, if_neg same]
        exact ih

theorem get_map (f : κ → ν → ω) (hash : Hash κ ν) (key : κ) :
    (hash.map f).get key = (hash.get key).map (f key) :=
  find_map f key hash.entries

theorem find_eq_none {key : κ} {entries : List (κ × ν)} :
    find key entries = none ↔ key ∉ entries.map Prod.fst := by
  induction entries with
  | nil => simp [find]
  | cons entry rest ih =>
      rw [find]
      by_cases same : entry.1 = key
      · simp [same]
      · have other : key ≠ entry.1 := fun equal => same equal.symm
        simp [same, other, ih]

theorem find_append (key : κ) (front behind : List (κ × ν)) :
    find key (front ++ behind) = (find key front).or (find key behind) := by
  induction front with
  | nil => rfl
  | cons entry rest ih =>
      rw [List.cons_append, find, find]
      split
      · rfl
      · exact ih

theorem find_filter (p : κ → Bool) (key : κ) (entries : List (κ × ν)) :
    find key (entries.filter fun entry => p entry.1) =
      if p key then find key entries else none := by
  induction entries with
  | nil =>
      rw [List.filter_nil, find, ite_self]
  | cons entry rest ih =>
      by_cases same : entry.1 = key
      · by_cases kept : p key = true
        · simp [same, kept, find]
        · simp [same, kept, ih]
      · by_cases kept : p entry.1 = true
        · simp [same, kept, ih, find]
        · simp [same, kept, ih, find]

theorem get_filter (p : κ → Bool) (hash : Hash κ ν) (key : κ) :
    (hash.filter p).get key = if p key then hash.get key else none :=
  find_filter p key hash.entries

theorem mem_keys {hash : Hash κ ν} {key : κ} : key ∈ hash.keys ↔ hash.get key ≠ none := by
  rw [get, ne_eq, find_eq_none, not_not, keys]

theorem mem_keys_set {hash : Hash κ ν} {key other : κ} {value : ν} :
    other ∈ (hash.set key value).keys ↔ other = key ∨ other ∈ hash.keys := by
  rw [mem_keys, mem_keys, get_set]
  by_cases same : key = other
  · rw [if_pos same]
    exact iff_of_true (Option.some_ne_none value) (.inl same.symm)
  · rw [if_neg same]
    exact (or_iff_right fun equal => same equal.symm).symm

theorem mem_keys_map {f : κ → ν → ω} {hash : Hash κ ν} {key : κ} :
    key ∈ (hash.map f).keys ↔ key ∈ hash.keys := by
  rw [mem_keys, mem_keys, get_map, ne_eq, Option.map_eq_none_iff]

theorem mem_keys_filter {p : κ → Bool} {hash : Hash κ ν} {key : κ} :
    key ∈ (hash.filter p).keys ↔ p key = true ∧ key ∈ hash.keys := by
  rw [mem_keys, mem_keys, get_filter]
  by_cases passes : p key = true
  · rw [if_pos passes]
    exact (and_iff_right passes).symm
  · rw [if_neg passes]
    exact iff_of_false (fun absurd => absurd rfl) fun both => passes both.1

/-- In a list without repeated keys an entry is found under its key. -/
theorem find_of_mem {entries : List (κ × ν)} (nodup : (entries.map Prod.fst).Nodup)
    {entry : κ × ν} (member : entry ∈ entries) : find entry.1 entries = some entry.2 := by
  induction entries with
  | nil => cases member
  | cons first rest ih =>
      rw [List.map_cons, List.nodup_cons] at nodup
      rw [find]
      obtain rfl | behind := List.mem_cons.mp member
      · rw [if_pos rfl]
      · have other : first.1 ≠ entry.1 := by
          intro same
          rw [same] at nodup
          exact nodup.1 (List.mem_map_of_mem behind)
        rw [if_neg other]
        exact ih nodup.2 behind

theorem mem_of_find {entries : List (κ × ν)} {key : κ} {value : ν}
    (found : find key entries = some value) : (key, value) ∈ entries := by
  induction entries with
  | nil => cases found
  | cons entry rest ih =>
      rw [find] at found
      by_cases same : entry.1 = key
      · rw [if_pos same] at found
        injection found with found
        rw [← same, ← found]
        exact List.mem_cons_self ..
      · rw [if_neg same] at found
        exact List.mem_cons_of_mem _ (ih found)

theorem mem_entries {hash : Hash κ ν} {key : κ} {value : ν} :
    (key, value) ∈ hash.entries ↔ hash.get key = some value :=
  ⟨find_of_mem hash.nodup, mem_of_find⟩

/-- New keys that are set one after the other stand behind the others. -/
theorem entries_foldl_set {hash : Hash κ ν} {pairs : List (κ × ν)}
    (nodup : (hash.entries ++ pairs).Pairwise fun first second => first.1 ≠ second.1) :
    (pairs.foldl (fun hash pair => hash.set pair.1 pair.2) hash).entries =
      hash.entries ++ pairs := by
  induction pairs generalizing hash with
  | nil => rw [List.foldl_nil, List.append_nil]
  | cons pair pairs ih =>
      have placed : (hash.set pair.1 pair.2).entries = hash.entries ++ [pair] := by
        have absent : ∀ entry ∈ hash.entries, entry.1 ≠ pair.1 := fun entry member =>
          (List.pairwise_append.mp nodup).2.2 entry member pair (List.mem_cons_self ..)
        show place pair.1 pair.2 hash.entries = _
        revert absent
        induction hash.entries with
        | nil => exact fun _ => rfl
        | cons entry rest ih =>
            intro absent
            rw [place, if_neg (absent entry (List.mem_cons_self ..)), List.cons_append,
              ih fun other member => absent other (List.mem_cons_of_mem _ member)]
      rw [List.foldl_cons, ih, placed, List.append_assoc, List.singleton_append]
      rw [placed, List.append_assoc, List.singleton_append]
      exact nodup

section Sum

variable {M : Type} [AddCommMonoid M] {f : κ → ν → M} {key : κ} {value : ν}

theorem sum_place_of_none {entries : List (κ × ν)} (absent : find key entries = none) :
    ((place key value entries).map fun entry => f entry.1 entry.2).sum =
      (entries.map fun entry => f entry.1 entry.2).sum + f key value := by
  induction entries with
  | nil => simp [place]
  | cons entry rest ih =>
      rw [find] at absent
      by_cases same : entry.1 = key
      · rw [if_pos same] at absent
        cases absent
      · rw [if_neg same] at absent
        simp only [place, if_neg same, List.map_cons, List.sum_cons, ih absent, add_assoc]

/-- What the other keys add up to. -/
theorem sum_place_split {entries : List (κ × ν)} {old : ν} (present : find key entries = some old) :
    ∃ others, (entries.map fun entry => f entry.1 entry.2).sum = f key old + others ∧
      ∀ value, ((place key value entries).map fun entry => f entry.1 entry.2).sum =
        f key value + others := by
  induction entries with
  | nil => cases present
  | cons entry rest ih =>
      rw [find] at present
      by_cases same : entry.1 = key
      · rw [if_pos same] at present
        injection present with present
        refine ⟨(rest.map fun entry => f entry.1 entry.2).sum, ?_, fun value => ?_⟩
        · rw [List.map_cons, List.sum_cons, same, present]
        · simp only [place, same, ↓reduceIte, List.map_cons, List.sum_cons]
      · rw [if_neg same] at present
        obtain ⟨others, sum, placed⟩ := ih present
        refine ⟨f entry.1 entry.2 + others, ?_, fun value => ?_⟩
        · rw [List.map_cons, List.sum_cons, sum, add_left_comm]
        · simp only [place, if_neg same, List.map_cons, List.sum_cons, placed, add_left_comm]

/-- A new key adds its value. -/
theorem sum_set_of_none {hash : Hash κ ν} (absent : hash.get key = none) :
    (hash.set key value).sum f = hash.sum f + f key value :=
  sum_place_of_none absent

/-- A key that is set again adds its new value in place of the old one. -/
theorem sum_set_split {hash : Hash κ ν} {old : ν} (present : hash.get key = some old) :
    ∃ others, hash.sum f = f key old + others ∧
      ∀ value, (hash.set key value).sum f = f key value + others :=
  sum_place_split present

/-- The values of a key in a list without repeated keys add up to its value. -/
theorem sum_of_find {entries : List (κ × M)}
    (nodup : (entries.map Prod.fst).Nodup) (key : κ) :
    ((entries.filter fun entry => entry.1 = key).map Prod.snd).sum =
      (find key entries).getD 0 := by
  induction entries with
  | nil => rfl
  | cons entry rest ih =>
      rw [List.map_cons, List.nodup_cons] at nodup
      rw [find]
      by_cases same : entry.1 = key
      · have none : rest.filter (fun entry => entry.1 = key) = [] := by
          rw [List.filter_eq_nil_iff]
          intro other member equal
          rw [same, ← of_decide_eq_true equal] at nodup
          exact nodup.1 (List.mem_map_of_mem member)
        rw [List.filter_cons, if_pos (decide_eq_true same), none, if_pos same]
        simp
      · rw [List.filter_cons, if_neg (by simpa using same), if_neg same]
        exact ih nodup.2

/-- A sum over keys among which are all keys of the hash. -/
theorem sum_eq_of_subset {hash : Hash κ ν} {keys : List κ} (nodup : keys.Nodup)
    (all : ∀ key ∈ hash.keys, key ∈ keys) :
    (keys.map fun key => (hash.get key).elim 0 (f key)).sum = hash.sum f := by
  have own : hash.sum f = (hash.keys.map fun key => (hash.get key).elim 0 (f key)).sum := by
    rw [sum, Hash.keys, List.map_map]
    congr 1
    apply List.map_congr_left
    intro entry member
    have found : hash.get entry.1 = some entry.2 := find_of_mem hash.nodup member
    rw [Function.comp_apply, found, Option.elim_some]
  have distinct : hash.keys.Nodup := hash.nodup
  rw [own, ← List.sum_toFinset _ nodup, ← List.sum_toFinset _ distinct]
  symm
  apply Finset.sum_subset
  · intro key member
    exact List.mem_toFinset.mpr (all key (List.mem_toFinset.mp member))
  · intro key _ absent
    have none : hash.get key = none := by
      by_contra present
      exact absent (List.mem_toFinset.mpr (mem_keys.mpr present))
    rw [none, Option.elim_none]

end Sum

end Hash
