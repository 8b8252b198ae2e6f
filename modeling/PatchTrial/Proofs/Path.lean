import PatchTrial.Path

/-!
Names of children. Whatever folders they are in, two files have different paths if their names
differ; and two files of one name have different paths if their folders differ. What is joined to the
path of a folder leads below the folder exactly if it goes down from there and never out again, or is
an absolute path that leads there.
-/
namespace PatchTrial.Path

/-- What stands after the last slash of a path. -/
def lastPiece (p : Path) : Bytes := (p.bytes.reverse.takeWhile (· != slash)).reverse

/-- A name that is one piece of a path: it has no slash. -/
def IsPiece (name : String) : Prop := slash ∉ Utf8.encode name

instance (name : String) : Decidable (IsPiece name) := inferInstanceAs (Decidable (_ ∉ _))

theorem isAbsolute_of_notMem {name : Bytes} (h : slash ∉ name) : isAbsolute ⟨name⟩ = false := by
  rw [isAbsolute, beq_eq_false_iff_ne]
  intro first
  exact h (List.mem_of_mem_head? first)

theorem isAbsolute_ofString {name : String} (h : IsPiece name) : (ofString name).isAbsolute = false :=
  isAbsolute_of_notMem h

/-- What is in an absolute folder has an absolute path. -/
theorem isAbsolute_child {p : Path} (h : p.isAbsolute = true) (name : String) :
    (p.child name).isAbsolute = true := by
  rw [child, join]
  split
  · assumption
  · obtain ⟨rest, first⟩ := List.head?_eq_some_iff.1 (beq_iff_eq.1 h)
    split <;> rw [isAbsolute, first] <;> rfl

/-- What is put before the name of a child: nothing, or bytes that end in a slash. -/
theorem child_eq (p : Path) {name : String} (h : IsPiece name) :
    ∃ front : Bytes, (p.child name).bytes = front ++ Utf8.encode name ∧
      (front = [] ∨ ∃ before, front = before ++ [slash]) := by
  rw [child, join, isAbsolute_ofString h, if_neg Bool.false_ne_true]
  by_cases ended : (p.bytes.isEmpty || p.bytes.getLast? == some slash) = true
  · rw [if_pos ended]
    refine ⟨p.bytes, rfl, ?_⟩
    rw [Bool.or_eq_true] at ended
    rcases ended with empty | last
    · exact .inl (List.isEmpty_iff.1 empty)
    · obtain ⟨before, e⟩ := List.getLast?_eq_some_iff.1 (beq_iff_eq.1 last)
      exact .inr ⟨before, e⟩
  · rw [if_neg ended]
    exact ⟨p.bytes ++ [slash], by rw [List.append_assoc]; rfl, .inr ⟨p.bytes, rfl⟩⟩

theorem lastPiece_child (p : Path) {name : String} (h : IsPiece name) :
    (p.child name).lastPiece = Utf8.encode name := by
  obtain ⟨front, e, slashed⟩ := p.child_eq h
  have within : ∀ b ∈ (Utf8.encode name).reverse, (b != slash) = true := by
    intro b hb
    rw [bne_iff_ne]
    intro e
    obtain rfl := e
    exact h (List.mem_reverse.1 hb)
  -- read from its end, the front starts with a slash
  have stops : front.reverse.takeWhile (· != slash) = [] := by
    rcases slashed with rfl | ⟨before, rfl⟩
    · rfl
    · rw [List.reverse_append, List.reverse_singleton, List.singleton_append,
        List.takeWhile_cons_of_neg (by simp)]
  rw [lastPiece, e, List.reverse_append, List.takeWhile_append_of_pos within, stops,
    List.append_nil, List.reverse_reverse]

theorem child_ne_child {p q : Path} {name name' : String} (h : IsPiece name) (h' : IsPiece name')
    (hne : Utf8.encode name ≠ Utf8.encode name') : p.child name ≠ q.child name' := by
  intro e
  have pieces := congrArg lastPiece e
  rw [lastPiece_child p h, lastPiece_child q h'] at pieces
  exact hne pieces

/-! ## Folders -/

/-- A path that does not end in a slash. -/
def IsNamed (p : Path) : Prop := p.bytes ≠ [] ∧ p.bytes.getLast? ≠ some slash

theorem child_of_isNamed {p : Path} (hp : p.IsNamed) {name : String} (h : IsPiece name) :
    (p.child name).bytes = p.bytes ++ slash :: Utf8.encode name := by
  have going : ¬ (p.bytes.isEmpty || p.bytes.getLast? == some slash) = true := by
    rw [Bool.or_eq_true, List.isEmpty_iff, beq_iff_eq]
    exact fun h => h.elim hp.1 hp.2
  rw [child, join, isAbsolute_ofString h, if_neg Bool.false_ne_true, if_neg going]
  rfl

theorem isNamed_child (p : Path) {name : String} (h : IsPiece name) (hn : Utf8.encode name ≠ []) :
    (p.child name).IsNamed := by
  obtain ⟨front, e, -⟩ := p.child_eq h
  rw [IsNamed, e]
  refine ⟨List.append_ne_nil_of_right_ne_nil front hn, ?_⟩
  rw [List.getLast?_append]
  cases hl : (Utf8.encode name).getLast? with
  | none => exact absurd (List.getLast?_eq_none_iff.1 hl) hn
  | some b =>
    intro last
    exact h (List.mem_of_getLast? (hl.trans last))

/-- Children of one name are in one folder only. -/
theorem child_injective {p q : Path} (hp : p.IsNamed) (hq : q.IsNamed) {name : String}
    (h : IsPiece name) (e : p.child name = q.child name) : p = q := by
  have bytes := congrArg Path.bytes e
  rw [child_of_isNamed hp h, child_of_isNamed hq h] at bytes
  have : p.bytes = q.bytes := List.append_cancel_right bytes
  cases p
  cases q
  cases this
  rfl

/-! ## Names along a path -/

theorem pieces_ne_nil (bytes : Bytes) : pieces bytes ≠ [] := by
  cases bytes with
  | nil => exact List.cons_ne_nil _ _
  | cons b rest =>
    rw [pieces]
    split
    · exact List.cons_ne_nil _ _
    · split <;> exact List.cons_ne_nil _ _

theorem pieces_cons {b : UInt8} (h : b ≠ slash) {rest : Bytes} {piece : Bytes} {more : List Bytes}
    (later : pieces rest = piece :: more) : pieces (b :: rest) = (b :: piece) :: more := by
  rw [pieces, if_neg h, later]

theorem pieces_append (front back : Bytes) :
    pieces (front ++ slash :: back) = pieces front ++ pieces back := by
  induction front with
  | nil => rfl
  | cons b rest ih =>
    obtain ⟨piece, more, later⟩ := List.exists_cons_of_ne_nil (pieces_ne_nil rest)
    rw [later] at ih
    by_cases h : b = slash
    · rw [List.cons_append, pieces, if_pos h, ih, pieces, if_pos h, later]
      rfl
    · rw [List.cons_append, pieces_cons h ih, pieces_cons h later]
      rfl

theorem pieces_of_notMem {bytes : Bytes} (h : slash ∉ bytes) : pieces bytes = [bytes] := by
  induction bytes with
  | nil => rfl
  | cons b rest ih =>
    have other : b ≠ slash := Ne.symm (List.ne_of_not_mem_cons h)
    exact pieces_cons other (ih (List.not_mem_of_not_mem_cons h))

theorem names_join {p q : Path} (h : q.isAbsolute = false) :
    (p.join q).names = p.names ++ q.names := by
  rw [join, h, if_neg Bool.false_ne_true]
  by_cases empty : p.bytes = []
  · simp [names, empty, pieces]
  by_cases ended : p.bytes.getLast? = some slash
  · obtain ⟨front, e⟩ := List.getLast?_eq_some_iff.1 ended
    have named : pieces (front ++ [slash]) = pieces front ++ [[]] := pieces_append front []
    simp [names, e, pieces_append, named]
  · simp [names, empty, ended, pieces_append]

theorem isAbsolute_join {p q : Path} (hp : p.bytes ≠ []) (h : q.isAbsolute = false) :
    (p.join q).isAbsolute = p.isAbsolute := by
  obtain ⟨b, rest, e⟩ := List.exists_cons_of_ne_nil hp
  rw [join, h, if_neg Bool.false_ne_true]
  split <;> rw [isAbsolute, isAbsolute, e] <;> rfl

/-- What is joined to one folder is as different as it was before. -/
theorem join_cancel {p q q' : Path} (h : q.isAbsolute = false) (h' : q'.isAbsolute = false)
    (same : p.join q = p.join q') : q = q' := by
  have bytes := congrArg Path.bytes same
  rw [join, join, h, h', if_neg Bool.false_ne_true, if_neg Bool.false_ne_true] at bytes
  cases q
  cases q'
  congr 1
  split at bytes
  · exact List.append_cancel_left bytes
  · exact (List.cons.inj (List.append_cancel_left bytes)).2

/-- What is joined to a folder ends in the name it has there, unless that leads nowhere or upwards. -/
theorem fileName?_join (p : Path) {name : Bytes} (piece : slash ∉ name) (nonempty : name ≠ [])
    (not_stop : name ≠ [stop]) (not_up : name ≠ [stop, stop]) :
    (p.join ⟨name⟩).fileName? = some name := by
  have named : names ⟨name⟩ = [name] := by
    rw [names, pieces_of_notMem piece]
    simp [nonempty, not_stop]
  rw [fileName?, names_join (isAbsolute_of_notMem piece), named, List.getLast?_concat]
  exact if_neg not_up

/-! ## Below a folder -/

/-- How deep names lead below a folder that is already so deep; none if they lead out of the topmost
one. Two stops lead one folder up; links are not looked at. -/
def depth? : Nat → List Bytes → Option Nat
  | n, [] => some n
  | n, name :: rest =>
    if name = [stop, stop] then
      match n with
      | 0 => none
      | n + 1 => depth? n rest
    else depth? (n + 1) rest

/-- Names lead to something in a folder and never out of it. -/
def Descends (names : List Bytes) : Prop := ∃ n, depth? 0 names = some (n + 1)

instance (names : List Bytes) : Decidable (Descends names) :=
  match h : depth? 0 names with
  | some (n + 1) => .isTrue ⟨n, h⟩
  | some 0 => .isFalse fun ⟨_, h'⟩ => nomatch h.symm.trans h'
  | none => .isFalse fun ⟨_, h'⟩ => nomatch h.symm.trans h'

/-- A path leads into a folder and stays there: it begins as the path of the folder does, and the
names after that descend. -/
def Below (folder p : Path) : Prop :=
  p.isAbsolute = folder.isAbsolute ∧ ∃ more, p.names = folder.names ++ more ∧ Descends more

theorem below_iff_drop {folder p : Path} :
    folder.Below p ↔ p.isAbsolute = folder.isAbsolute ∧ folder.names <+: p.names ∧
      Descends (p.names.drop folder.names.length) := by
  refine and_congr_right fun _ => ?_
  constructor
  · rintro ⟨more, same, descends⟩
    rw [same, List.drop_left]
    exact ⟨List.prefix_append _ more, descends⟩
  · rintro ⟨⟨more, same⟩, descends⟩
    rw [← same, List.drop_left] at descends
    exact ⟨more, same.symm, descends⟩

instance (folder p : Path) : Decidable (folder.Below p) := decidable_of_iff _ below_iff_drop.symm

theorem below_child_iff {folder : Path} (h : folder.bytes ≠ []) (name : String) :
    folder.Below (folder.child name) ↔
      if (ofString name).isAbsolute then folder.Below (ofString name)
      else Descends (ofString name).names := by
  split
  · next absolute => rw [child, join, if_pos absolute]
  · next relative =>
    have relative := eq_false_of_ne_true relative
    rw [child, Below, isAbsolute_join h relative, names_join relative]
    constructor
    · rintro ⟨-, more, same, descends⟩
      exact List.append_cancel_left same ▸ descends
    · exact fun descends => ⟨rfl, _, rfl, descends⟩

/-- A name that is one piece of a path and leads somewhere. -/
structure IsName (name : String) : Prop where
  piece : IsPiece name
  nonempty : Utf8.encode name ≠ []
  not_stop : Utf8.encode name ≠ [stop]
  not_up : Utf8.encode name ≠ [stop, stop]

theorem IsName.descends {name : String} (h : IsName name) : Descends (ofString name).names := by
  have named : (ofString name).names = [Utf8.encode name] := by
    rw [names, ofString, pieces_of_notMem h.piece]
    simp [h.nonempty, h.not_stop]
  refine ⟨0, ?_⟩
  rw [named, depth?, if_neg h.not_up, depth?]

theorem IsName.below {folder : Path} (hf : folder.bytes ≠ []) {name : String} (h : IsName name) :
    folder.Below (folder.child name) := by
  rw [below_child_iff hf, isAbsolute_ofString h.piece, if_neg Bool.false_ne_true]
  exact h.descends

end PatchTrial.Path
