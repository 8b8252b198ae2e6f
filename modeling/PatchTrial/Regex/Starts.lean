import PatchTrial.Regex.Matcher

/-!
Where a match can start. A set of places of a text is a number whose bits tell which places are in
it. From the places that what follows a node can start from, the places that the node can start from
are found in one pass over the node, without trying any way twice. More places than needed may come
out, so that upper bounds of repetitions need not be looked at, but never fewer
(`Node.stepCovers_track`). So a search may leave all other places out, and a pattern whose ways
multiply costs nothing where it does not match (`Node.search_eq_findSome?`).
-/
namespace PatchTrial.Regex

/-- A set of places, as a number: the place with an index is in it if the bit with that index is
set. -/
abbrev Places := Nat

/-- The places of a list that meet a condition, the list's first place having index 0. -/
def Places.that (ok : Place → Bool) : List Place → Places
  | [] => 0
  | p :: rest => (that ok rest <<< 1) ||| (ok p).toNat

/-- What a step leads to if it is taken again and again, and `all` places if `budget` times still
find new ones. -/
def Places.closure (all : Places) (step : Places → Places) : Nat → Places → Places
  | 0, _ => all
  | budget + 1, m =>
    let more := m ||| step m
    if more = m then m else closure all step budget more

def Places.times (step : Places → Places) : Nat → Places → Places
  | 0, m => m
  | n + 1, m => step (times step n m)

/-- A node for one line: the places where a character of a set follows, and those that meet a
condition, stand for the set and the condition, so that they are found once. -/
inductive Track
  | empty
  | one (here : Places)
  | look (here : Places)
  | seq (first second : Track)
  | alt (first second : Track)
  | repeated (part : Track) (least : Nat)

/-- The track of a node in a line. -/
def Node.track (ps : List Place) : Node → Track
  | empty => .empty
  | one set => .one (Places.that (Place.isBefore · set) ps)
  | look l => .look (Places.that l.holds ps)
  | group _ part => part.track ps
  | seq first second => .seq (first.track ps) (second.track ps)
  | alt first second => .alt (first.track ps) (second.track ps)
  | repeated part least _ _ => .repeated (part.track ps) least

/-- The places that a track can start from, if `m` are those that what follows it can start from and
`count` places make up the line, `all` of them. -/
def Track.before (all : Places) (count : Nat) : Track → Places → Places
  | empty, m => m
  | one here, m => here &&& (m >>> 1)
  | look here, m => here &&& m
  | seq first second, m => first.before all count (second.before all count m)
  | alt first second, m => first.before all count m ||| second.before all count m
  | repeated part least, m =>
    let step := part.before all count
    Places.times step least (Places.closure all step (count + 1) m)

/-- The places of a line where a match of a node can start. -/
def Node.starts (node : Node) (ps : List Place) : Places :=
  let all := Places.that (fun _ => true) ps
  (node.track ps).before all ps.length all

def Node.search (node : Node) (text : List Char) : Option Groups :=
  let ps := places text
  let starts := node.starts ps
  (ps.filter fun p => starts.testBit p.index).findSome? node.matchAt

/-! ### The places of a text -/

/-- The index of a place is its number in the list, and the place after it is in the list too. -/
structure IsLine (ps : List Place) : Prop where
  getElem? : ∀ p ∈ ps, ps[p.index]? = some p
  after : ∀ p ∈ ps, ∀ c rest, p.rest = c :: rest → p.after c rest ∈ ps

theorem getElem?_placesFrom {text : List Char} {prev : Option Char} {index : Nat} {p : Place}
    (h : p ∈ placesFrom prev index text) :
    index ≤ p.index ∧ (placesFrom prev index text)[p.index - index]? = some p := by
  induction text generalizing prev index with
  | nil =>
    simp only [placesFrom, List.mem_singleton] at h
    subst h
    simp [placesFrom]
  | cons c rest ih =>
    simp only [placesFrom, List.mem_cons] at h
    rcases h with rfl | h
    · simp [placesFrom]
    · have ⟨le, at_⟩ := ih h
      refine ⟨by omega, ?_⟩
      have step : p.index - index = p.index - (index + 1) + 1 := by omega
      rw [step, placesFrom, List.getElem?_cons_succ]
      exact at_

theorem head_mem_placesFrom (prev : Option Char) (index : Nat) (text : List Char) :
    ⟨prev, text, index⟩ ∈ placesFrom prev index text := by
  cases text <;> simp [placesFrom]

theorem after_mem_placesFrom {text : List Char} {prev : Option Char} {index : Nat} {p : Place}
    (h : p ∈ placesFrom prev index text) {c : Char} {rest : List Char} (hr : p.rest = c :: rest) :
    p.after c rest ∈ placesFrom prev index text := by
  induction text generalizing prev index with
  | nil =>
    simp only [placesFrom, List.mem_singleton] at h
    subst h
    cases hr
  | cons d more ih =>
    simp only [placesFrom, List.mem_cons] at h ⊢
    rcases h with rfl | h
    · cases hr
      exact .inr (head_mem_placesFrom ..)
    · exact .inr (ih h)

theorem isLine_places (text : List Char) : IsLine (places text) where
  getElem? _ h := (getElem?_placesFrom h).2
  after _ h _ _ hr := after_mem_placesFrom h hr

/-! ### Sets of places -/

theorem Places.testBit_that (ok : Place → Bool) (ps : List Place) (i : Nat) :
    (Places.that ok ps).testBit i = ps[i]?.any ok := by
  have one (n : Nat) : Nat.testBit 1 (n + 1) = false := by
    rw [Nat.testBit_succ]
    exact Nat.zero_testBit n
  induction ps generalizing i with
  | nil => simp [that]
  | cons p rest ih => cases i <;> cases h : ok p <;> simp [that, ih, h, one]

theorem IsLine.testBit_that {ps : List Place} (h : IsLine ps) (ok : Place → Bool) {p : Place}
    (hp : p ∈ ps) : (Places.that ok ps).testBit p.index = ok p := by
  rw [Places.testBit_that, h.getElem? p hp]
  rfl

/-- Whether all places of a line that are in one set are in the other. -/
def Places.Within (ps : List Place) (m m' : Places) : Prop :=
  ∀ p ∈ ps, m.testBit p.index → m'.testBit p.index

namespace Places

theorem times_succ (step : Places → Places) (n : Nat) (m : Places) :
    times step (n + 1) m = times step n (step m) := by
  induction n with
  | zero => rfl
  | succ n ih => rw [times, ih, times]

variable {ps : List Place} {all : Places} (hall : ∀ p ∈ ps, all.testBit p.index)
  (step : Places → Places)

include hall

theorem within_closure (budget : Nat) (m : Places) :
    Within ps m (closure all step budget m) := by
  induction budget generalizing m with
  | zero => exact fun p hp _ => hall p hp
  | succ budget ih =>
    simp only [closure]
    split
    · exact fun _ _ h => h
    · exact fun p hp h => ih _ p hp (by simp [Nat.testBit_or, h])

/-- No further step leads out of a closure. -/
theorem step_closure_within (budget : Nat) (m : Places) :
    Within ps (step (closure all step budget m)) (closure all step budget m) := by
  induction budget generalizing m with
  | zero => exact fun p hp _ => hall p hp
  | succ budget ih =>
    simp only [closure]
    split
    · next same =>
      intro p _ h
      rw [← same, Nat.testBit_or, h, Bool.or_true]
    · exact ih _

end Places

/-! ### What follows a node -/

/-- What follows a node succeeds at no place of the line outside the set. -/
def Covers (ps : List Place) (m : Places) (k : Follow) : Prop :=
  ∀ p ∈ ps, ∀ g, (k p g).isSome → m.testBit p.index

/-- A way to run a part succeeds at no place of the line outside those the step finds. -/
def StepCovers (ps : List Place) (step : Places → Places) (part : Follow → Follow) : Prop :=
  ∀ m k, Covers ps m k → Covers ps (step m) (part k)

namespace Covers

variable {ps : List Place} {m : Places} {k : Follow} {step : Places → Places}
  {part : Follow → Follow}

theorem mono {m' : Places} (h : Covers ps m k) (le : Places.Within ps m m') :
    Covers ps m' k :=
  fun p hp g hs => le p hp (h p hp g hs)

theorem either {m' : Places} {k' : Follow} (h : Covers ps m k) (h' : Covers ps m' k') :
    Covers ps (m ||| m') (k.either k') := by
  intro p hp g hs
  rw [Nat.testBit_or, Bool.or_eq_true]
  simp only [Follow.either] at hs
  split at hs
  · next found hf => exact .inl (h p hp g (by simp [hf]))
  · exact .inr (h' p hp g hs)

/-- Another round and none, both from places of one set. -/
theorem round {k' : Follow} (h : Covers ps m k) (h' : Covers ps m k') (greedy : Bool) :
    Covers ps m (Follow.round greedy k k') := by
  rw [← Nat.or_self m]
  cases greedy
  · exact h'.either h
  · exact h.either h'

theorem times (h : Covers ps m k) (hp : StepCovers ps step part) (n : Nat) :
    Covers ps (Places.times step n m) (Follow.times part n k) := by
  induction n with
  | zero => exact h
  | succ n ih => exact hp _ _ ih

/-! In what follows no step leads out of the set. -/

variable (h : Covers ps m k) (hp : StepCovers ps step part)
  (closed : Places.Within ps (step m) m)

include h hp closed

theorem upTo (greedy : Bool) (n : Nat) : Covers ps m (Follow.upTo part greedy n k) := by
  induction n with
  | zero => exact h
  | succ n ih => exact ((hp _ _ ih).mono closed).round h greedy

theorem rounds (greedy : Bool) (n : Nat) : Covers ps m (Follow.rounds part greedy k n) := by
  induction n with
  | zero => exact h
  | succ n ih =>
    intro p hmem g
    refine (((hp _ _ ?_).mono closed).round h greedy) p hmem g
    intro q hq g' hs
    dsimp only at hs
    split at hs
    · exact ih q hq g' hs
    · cases hs

theorem many (greedy : Bool) : Covers ps (step m) (Follow.many part greedy k) := by
  intro p hmem g
  refine hp _ _ ?_ p hmem g
  intro q hq g' hs
  dsimp only at hs
  split at hs
  · exact h.rounds hp closed greedy _ q hq g' hs
  · exact h q hq g' hs

end Covers

/-- A node starts at none but the places that its track finds. -/
theorem Node.stepCovers_track {ps : List Place} (hl : IsLine ps) {all : Places}
    (hall : ∀ p ∈ ps, all.testBit p.index) (count : Nat) (node : Node) :
    StepCovers ps ((node.track ps).before all count) node.run := by
  induction node with
  | empty => exact fun _ _ h => h
  | one set =>
    intro m k h p hp g hs
    simp only [run] at hs
    split at hs
    · next c rest hr =>
      split at hs
      · next hc =>
        have next := h _ (hl.after p hp c rest hr) g hs
        rw [track, Track.before, Nat.testBit_and, Nat.testBit_shiftRight, hl.testBit_that _ hp,
          Nat.add_comm 1]
        simp [Place.isBefore, hr, hc]
        exact next
      · cases hs
    · cases hs
  | look l =>
    intro m k h p hp g hs
    simp only [run] at hs
    split at hs
    · next ok =>
      rw [track, Track.before, Nat.testBit_and, hl.testBit_that _ hp, ok, h p hp g hs]
      rfl
    · cases hs
  | group index part ih =>
    intro m k h p hp g hs
    exact ih _ _ (fun q hq g' hs' => h q hq _ hs') p hp g hs
  | seq first second ih ih' => exact fun _ _ h => ih _ _ (ih' _ _ h)
  | alt first second ih ih' => exact fun _ _ h => (ih _ _ h).either (ih' _ _ h)
  | repeated part least most greedy ih =>
    intro m k h
    let step := (part.track ps).before all count
    have closed := Places.step_closure_within hall step (count + 1) m
    have h := h.mono (Places.within_closure hall step (count + 1) m)
    cases most with
    | some most => exact (h.upTo ih closed greedy _).times ih least
    | none =>
      cases least with
      | zero => exact ((h.many ih closed greedy).mono closed).round h greedy
      | succ least =>
        simp only [track, Track.before, Places.times_succ]
        exact (h.many ih closed greedy).times ih least

/-- Elements that give nothing may be left out of a search. -/
theorem findSome?_filter_of_isSome {α β : Type} {ok : α → Bool} {f : α → Option β} {l : List α}
    (h : ∀ a ∈ l, (f a).isSome → ok a) : (l.filter ok).findSome? f = l.findSome? f := by
  induction l with
  | nil => rfl
  | cons a rest ih =>
    have ih := ih fun b hb => h b (List.mem_cons_of_mem _ hb)
    rw [List.filter_cons]
    split
    · rw [List.findSome?_cons, List.findSome?_cons, ih]
    · next left_out =>
      have nothing : f a = none := by
        cases hf : f a with
        | none => rfl
        | some b => exact absurd (h a List.mem_cons_self (by rw [hf]; rfl)) left_out
      rw [List.findSome?_cons, nothing, ih]

/-- A search finds what it would find if it tried every place. -/
theorem Node.search_eq_findSome? (node : Node) (text : List Char) :
    node.search text = (places text).findSome? node.matchAt :=
  have hl := isLine_places text
  have hall : ∀ p ∈ places text, (Places.that (fun _ => true) (places text)).testBit p.index :=
    fun _ hp => hl.testBit_that _ hp
  findSome?_filter_of_isSome fun p hp =>
    node.stepCovers_track hl hall _ _ _ (fun q hq _ _ => hall q hq) p hp []

end PatchTrial.Regex
