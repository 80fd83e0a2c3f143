/-!
# Dictionaries in insertion order

A dictionary is a row of entries.  Setting a key that is present keeps its place and its first
spelling; a new key goes to the end.
-/

namespace BracketCall
namespace Dictionary

variable {α β : Type}

/-- Sets a key, where `same` tells which keys count as one. -/
def setBy (same : α → α → Bool) (key : α) (value : β) : List (α × β) → List (α × β)
  | [] => [(key, value)]
  | (k, v) :: rest =>
      if same k key then (k, value) :: rest else (k, v) :: setBy same key value rest

/-- The value of a key, where `same` tells which keys count as one. -/
def getBy? (same : α → α → Bool) (key : α) : List (α × β) → Option β
  | [] => none
  | (k, v) :: rest => if same k key then some v else getBy? same key rest

/-- The dictionary of a row of entries, set one after the other. -/
def ofEntriesBy (same : α → α → Bool) (entries : List (α × β)) : List (α × β) :=
  entries.foldl (fun dict (k, v) => setBy same k v dict) []

variable [BEq α]

/-- Sets a key. -/
def set (key : α) (value : β) (dict : List (α × β)) : List (α × β) :=
  setBy (· == ·) key value dict

/-- The value of a key. -/
def get? (key : α) (dict : List (α × β)) : Option β :=
  getBy? (· == ·) key dict

/-- The keys, in the order in which they were first set. -/
def keys (dict : List (α × β)) : List α :=
  dict.map Prod.fst

omit [BEq α] in
@[simp] theorem keys_nil : keys ([] : List (α × β)) = [] := rfl

omit [BEq α] in
@[simp] theorem keys_cons (entry : α × β) (dict : List (α × β)) :
    keys (entry :: dict) = entry.1 :: keys dict := rfl

/-- What is found stands in the dictionary. -/
theorem exists_mem_of_get? {key : α} {value : β} {dict : List (α × β)}
    (h : get? key dict = some value) : ∃ k, (k, value) ∈ dict := by
  simp only [get?] at h
  induction dict with
  | nil => cases h
  | cons entry dict ih =>
      obtain ⟨first, v⟩ := entry
      rw [getBy?] at h
      split at h
      · cases h
        exact ⟨first, List.mem_cons_self⟩
      · obtain ⟨k, hk⟩ := ih h
        exact ⟨k, List.mem_cons_of_mem _ hk⟩

variable [LawfulBEq α]

/-- Setting a key changes what is found under it and nothing else. -/
theorem get?_set (key k : α) (value : β) (dict : List (α × β)) :
    get? k (set key value dict) = if key == k then some value else get? k dict := by
  simp only [get?, set]
  induction dict with
  | nil => rfl
  | cons entry dict ih =>
      obtain ⟨first, v⟩ := entry
      by_cases hfirst : first = key
      · subst hfirst
        by_cases hk : first = k
        · simp [setBy, getBy?, hk]
        · simp [setBy, getBy?, hk]
      · by_cases hk : first = k
        · subst hk
          have hne : ¬ key = first := fun h => hfirst h.symm
          simp [setBy, getBy?, hfirst, hne]
        · simp [setBy, getBy?, hfirst, hk, ih]

/-- A key that is present keeps its place, and a new one goes to the end. -/
theorem keys_set (key : α) (value : β) (dict : List (α × β)) :
    keys (set key value dict) = if key ∈ keys dict then keys dict else keys dict ++ [key] := by
  induction dict with
  | nil => simp [set, setBy]
  | cons entry dict ih =>
      obtain ⟨first, v⟩ := entry
      simp only [set] at ih ⊢
      by_cases hfirst : first = key
      · simp [setBy, hfirst]
      · have hne : ¬ key = first := fun h => hfirst h.symm
        by_cases hmem : key ∈ keys dict
        · simp [setBy, hfirst, ih, hmem]
        · simp [setBy, hfirst, hne, ih, hmem]

end Dictionary
end BracketCall
