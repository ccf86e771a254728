/-
This file holds the table of watches of a context: for each token the descriptor, the interest
and the callback of a watch, in the order in which the watches were made. The small lemmas say
what each operation does to the entry under a token.
-/

import MessagePump.Watch.Flags

namespace MessagePump

/-- A watch is known by its token. -/
abbrev Token := Nat

/-- Callbacks are told apart by number. -/
abbrev CallbackId := Nat

/-- Descriptors have numbers; a negative number is no descriptor. -/
abbrev Descriptor := Int

/-- One watch. It is without a callback while the callback is running. -/
structure Watch where
  descriptor : Descriptor
  interest : Interest
  callback : Option CallbackId
  deriving DecidableEq

/-- The watches of a context by token. -/
abbrev WatchTable := List (Token × Watch)

namespace WatchTable

/-- The watch under a token. -/
def find? (table : WatchTable) (token : Token) : Option Watch := table.lookup token

/-- The table without the watch under a token. -/
def remove (table : WatchTable) (token : Token) : WatchTable :=
  table.filter fun entry => entry.1 != token

/-- The table with a watch under a token, in place of the one that was there. -/
def insert (table : WatchTable) (token : Token) (watch : Watch) : WatchTable :=
  table.remove token ++ [(token, watch)]

/-- The table with the watch under a token changed. -/
def update (table : WatchTable) (token : Token) (change : Watch → Watch) : WatchTable :=
  table.map fun entry => if entry.1 == token then (entry.1, change entry.2) else entry

/-- The callbacks that are in the table. -/
def callbacks (table : WatchTable) : List CallbackId :=
  table.filterMap fun entry => entry.2.callback

/-! ### The entry under a token -/

theorem find?_cons (entry : Token × Watch) (table : WatchTable) (key : Token) :
    find? (entry :: table) key = if key = entry.1 then some entry.2 else table.find? key := by
  obtain ⟨first, watch⟩ := entry
  by_cases here : key = first
  · subst here
    simp [find?]
  · simp [find?, List.lookup_cons, beq_false_of_ne here, here]

theorem remove_cons (entry : Token × Watch) (table : WatchTable) (token : Token) :
    remove (entry :: table) token =
      if entry.1 = token then table.remove token else entry :: table.remove token := by
  by_cases same : entry.1 = token <;> simp [remove, same]

theorem find?_remove_self (table : WatchTable) (token : Token) :
    (table.remove token).find? token = none := by
  induction table with
  | nil => rfl
  | cons entry table ih =>
    rw [remove_cons]
    split
    · exact ih
    · next other => rw [find?_cons, if_neg (Ne.symm other), ih]

theorem find?_remove_other (table : WatchTable) {token key : Token} (other : key ≠ token) :
    (table.remove token).find? key = table.find? key := by
  induction table with
  | nil => rfl
  | cons entry table ih =>
    rw [remove_cons, find?_cons]
    split
    · next same => rw [ih, if_neg (same ▸ other)]
    · rw [find?_cons, ih]

theorem find?_update (table : WatchTable) (token key : Token) (change : Watch → Watch) :
    (table.update token change).find? key =
      if key = token then (table.find? key).map change else table.find? key := by
  induction table with
  | nil => simp [update, find?]
  | cons entry table ih =>
    rw [update] at ih
    rw [update, List.map_cons, find?_cons, find?_cons, ih]
    by_cases same : entry.1 = token
    · by_cases here : key = token <;> simp [same, here]
    · by_cases here : key = entry.1
      · simp [here, same]
      · simp [same, here]

end WatchTable

end MessagePump
