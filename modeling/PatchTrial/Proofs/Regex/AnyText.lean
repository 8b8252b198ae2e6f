import PatchTrial.Regex

/-!
The pattern that takes one character and remembers all that is left of the line. It reads every
line that has a character, whatever is on it.

What is proved:
  1. `many_all`: a greedy repetition of any character goes to the end of the text, if what follows
     succeeds there.
  2. `captures?_afterFirst`: the group of the pattern is the line without its first character.
-/
namespace PatchTrial.Regex

/-- The place at the end of a text that starts after `prev` with index `index`. -/
def Place.finish (prev : Option Char) (index : Nat) : List Char → Place
  | [] => ⟨prev, [], index⟩
  | c :: rest => finish (some c) (index + 1) rest

theorem Place.finish_rest (prev : Option Char) (index : Nat) (text : List Char) :
    (Place.finish prev index text).rest = [] := by
  induction text generalizing prev index with
  | nil => rfl
  | cons c rest ih => exact ih (some c) (index + 1)

theorem Place.finish_index (prev : Option Char) (index : Nat) (text : List Char) :
    (Place.finish prev index text).index = index + text.length := by
  induction text generalizing prev index with
  | nil => rfl
  | cons c rest ih =>
    rw [finish, ih, List.length_cons]
    omega

theorem run_all_cons (k : Follow) (prev : Option Char) (c : Char) (rest : List Char) (index : Nat)
    (g : Groups) :
    (Node.one .all).run k ⟨prev, c :: rest, index⟩ g = k ⟨some c, rest, index + 1⟩ g := rfl

theorem run_all_nil (k : Follow) (prev : Option Char) (index : Nat) (g : Groups) :
    (Node.one .all).run k ⟨prev, [], index⟩ g = none := rfl

/-- A greedy round that succeeds is taken. -/
theorem Follow.round_of_some {more stop : Follow} {p : Place} {g found : Groups}
    (h : more p g = some found) : Follow.round true more stop p g = some found := by
  show Follow.either more stop p g = some found
  rw [Follow.either, h]

/-- A greedy round that fails is left out. -/
theorem Follow.round_of_none {more stop : Follow} {p : Place} {g : Groups}
    (h : more p g = none) : Follow.round true more stop p g = stop p g := by
  show Follow.either more stop p g = stop p g
  rw [Follow.either, h]

/-- Rounds over any character go to the end of the text. -/
theorem rounds_all {k : Follow} {g found : Groups} (text : List Char) :
    ∀ (n : Nat) (prev : Option Char) (index : Nat), text.length ≤ n →
      k (Place.finish prev index text) g = some found →
        Follow.rounds (Node.one .all).run true k n ⟨prev, text, index⟩ g = some found := by
  induction text with
  | nil =>
    intro n prev index _ h
    cases n with
    | zero => exact h
    | succ n => exact (Follow.round_of_none (run_all_nil _ prev index g)).trans h
  | cons c rest ih =>
    intro n prev index hn h
    cases n with
    | zero => cases hn
    | succ n =>
      refine Follow.round_of_some ?_
      rw [run_all_cons, if_pos (Nat.lt_succ_self index)]
      exact ih n (some c) (index + 1) (Nat.le_of_succ_le_succ hn) h

theorem many_all {k : Follow} {g found : Groups} (text : List Char) (prev : Option Char)
    (index : Nat) (h : k (Place.finish prev index text) g = some found) :
    (Node.repeated (.one .all) 0 none true).run k ⟨prev, text, index⟩ g = some found := by
  cases text with
  | nil =>
    have none : Follow.many (Node.one .all).run true k ⟨prev, [], index⟩ g = none := rfl
    rw [Node.run, Follow.round_of_none none]
    exact h
  | cons c rest =>
    -- the first round takes a character, so rounds go on, as many as there are characters left
    refine Follow.round_of_some ?_
    rw [Follow.many, run_all_cons, if_pos (Nat.lt_succ_self index)]
    exact rounds_all rest rest.length (some c) (index + 1) (Nat.le_refl _) h

/-- The pattern that takes one character and remembers the rest. -/
def afterFirst : Regex where
  text := "(?s)^.(.*)$"
  node := .seq (.seq (.seq (.look .start) (.one .all)) (.group 1 (.repeated (.one .all) 0 none true)))
    (.look .finish)
  read := rfl

theorem matchAt_afterFirst (c : Char) (rest : List Char) :
    afterFirst.node.matchAt ⟨none, c :: rest, 0⟩ = some [(1, ⟨rest, rest.length⟩)] := by
  show (Node.repeated (.one .all) 0 none true).run _ ⟨some c, rest, 1⟩ [] = _
  refine many_all rest (some c) 1 ?_
  have ended : Look.finish.holds (Place.finish (some c) 1 rest) = true := by
    rw [Look.holds, Place.finish_rest]
    rfl
  simp only [Node.run, ended, if_true, Follow.nothing, Place.spanTo, Place.after,
    Place.finish_index, Nat.zero_add, Nat.add_sub_cancel_left]

theorem captures?_afterFirst (c : Char) (rest : List Char) :
    afterFirst.captures? (String.ofList (c :: rest)) = some ⟨[(1, ⟨rest, rest.length⟩)]⟩ := by
  have found : (places (c :: rest)).findSome? afterFirst.node.matchAt =
      some [(1, ⟨rest, rest.length⟩)] := by
    rw [places, placesFrom, List.findSome?_cons, matchAt_afterFirst]
  rw [captures?, Node.search_eq_findSome?, String.toList_ofList, found]
  rfl

end PatchTrial.Regex
