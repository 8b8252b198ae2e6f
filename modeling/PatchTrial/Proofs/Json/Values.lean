import PatchTrial.Json.Document

/-!
Values, the documents with nothing wrong in them. A value has one row of tokens, and reading that
row gives the value back as long as it is not nested too deep; a document that is read without a
problem comes from the row of a value. So what is said about texts can be said about values.

What is proved:
  1. `read_tokens`: the row of a value is read as the value, whatever follows it.
  2. `eq_tokens_of_read`: only the row of a value is read as the value.
  3. `Rearranged.nesting_eq`: the order of members does not change how deep a value is nested.
-/
namespace PatchTrial.Json

/-- A document with nothing wrong in it. -/
inductive Value
  | null
  | boolean (b : Bool)
  | number (n : Number)
  | text (s : String)
  | list (items : List Value)
  | object (members : List (String × Value))

namespace Value

mutual

def document : Value → Document
  | null => .null
  | boolean b => .boolean b
  | number n => .number n
  | text s => .text s
  | list items => .list (itemDocuments items) .closed
  | object members => .object (memberDocuments members) .closed

def itemDocuments : List Value → List Document
  | [] => []
  | item :: items => item.document :: itemDocuments items

def memberDocuments : List (String × Value) → List (Document × Except Problem Document)
  | [] => []
  | (name, value) :: members => (.text name, .ok value.document) :: memberDocuments members

end

mutual

/-- How deep lists and objects are nested in a value. -/
def nesting : Value → Nat
  | null => 0
  | boolean _ => 0
  | number _ => 0
  | text _ => 0
  | list items => itemNesting items + 1
  | object members => memberNesting members + 1

def itemNesting : List Value → Nat
  | [] => 0
  | item :: items => max item.nesting (itemNesting items)

def memberNesting : List (String × Value) → Nat
  | [] => 0
  | (_, value) :: members => max value.nesting (memberNesting members)

end

mutual

def tokens : Value → List Token
  | null => [.null]
  | boolean b => [.boolean b]
  | number n => [.number n]
  | text s => [.text s]
  | list [] => [.listOpen, .listClose]
  | list (item :: items) => .listOpen :: (item.tokens ++ furtherItems items)
  | object [] => [.objectOpen, .objectClose]
  | object ((name, value) :: members) =>
    .objectOpen :: .text name :: .colon :: (value.tokens ++ furtherMembers members)

/-- The tokens of a list from the end of an item on. -/
def furtherItems : List Value → List Token
  | [] => [.listClose]
  | item :: items => .comma :: (item.tokens ++ furtherItems items)

/-- The tokens of an object from the end of a member on. -/
def furtherMembers : List (String × Value) → List Token
  | [] => [.objectClose]
  | (name, value) :: members =>
    .comma :: .text name :: .colon :: (value.tokens ++ furtherMembers members)

end

end Value

theorem Value.exists_tokens : ∀ v : Value, ∃ t ts, v.tokens = t :: ts ∧ t ≠ .listClose
  | .null => ⟨_, _, rfl, nofun⟩
  | .boolean _ => ⟨_, _, rfl, nofun⟩
  | .number _ => ⟨_, _, rfl, nofun⟩
  | .text _ => ⟨_, _, rfl, nofun⟩
  | .list [] => ⟨_, _, rfl, nofun⟩
  | .list (_ :: _) => ⟨_, _, rfl, nofun⟩
  | .object [] => ⟨_, _, rfl, nofun⟩
  | .object ((_, _) :: _) => ⟨_, _, rfl, nofun⟩

/-! ## The row of a value is read as the value -/

namespace Document

theorem read_listOpen {t : Token} (h : t ≠ .listClose) (budget depth : Nat) (ts : List Token) :
    read (budget + 1) (depth + 1) (.listOpen :: t :: ts) =
      let (items, ending, rest) := readItems budget depth (t :: ts)
      (.list items ending, rest) := by
  cases t <;> first | rfl | exact absurd rfl h

theorem readItems_comma {t : Token} (h : t ≠ .listClose) {budget depth : Nat} {item : Document}
    {tokens ts : List Token} (first : read budget depth tokens = (item, .comma :: t :: ts)) :
    readItems (budget + 1) depth tokens =
      let (items, ending, rest) := readItems budget depth (t :: ts)
      (item :: items, ending, rest) := by
  rw [readItems, first]
  cases t <;> first | rfl | exact absurd rfl h

theorem readItems_listClose {budget depth : Nat} {item : Document} {tokens ts : List Token}
    (last : read budget depth tokens = (item, .listClose :: ts)) :
    readItems (budget + 1) depth tokens = ([item], .closed, ts) := by
  rw [readItems, last]

theorem read_objectOpen {t : Token} (h : t ≠ .objectClose) (budget depth : Nat)
    (ts : List Token) :
    read (budget + 1) (depth + 1) (.objectOpen :: t :: ts) =
      let (members, ending, rest) := readMembers budget depth (t :: ts)
      (.object members ending, rest) := by
  cases t <;> first | rfl | exact absurd rfl h

theorem readMembers_comma {name next : String} {value : Document} {budget depth : Nat}
    {tokens ts : List Token}
    (first : read (budget + 1) depth tokens = (value, .comma :: .text next :: ts)) :
    readMembers (budget + 2) depth (.text name :: .colon :: tokens) =
      let (members, ending, rest) := readMembers (budget + 1) depth (.text next :: ts)
      ((.text name, .ok value) :: members, ending, rest) := by
  rw [readMembers, read]
  dsimp only
  rw [first]

theorem readMembers_objectClose {name : String} {value : Document} {budget depth : Nat}
    {tokens ts : List Token} (last : read (budget + 1) depth tokens = (value, .objectClose :: ts)) :
    readMembers (budget + 2) depth (.text name :: .colon :: tokens) =
      ([(.text name, .ok value)], .closed, ts) := by
  rw [readMembers, read]
  dsimp only
  rw [last]

end Document

mutual

/-- The row of a value is read as the value, whatever follows it. -/
theorem read_tokens : ∀ (v : Value) {budget depth : Nat} (rest : List Token),
    v.tokens.length ≤ budget → v.nesting ≤ depth →
      Document.read budget depth (v.tokens ++ rest) = (v.document, rest)
  | .null, budget + 1, _, _, _, _ => rfl
  | .boolean _, budget + 1, _, _, _, _ => rfl
  | .number _, budget + 1, _, _, _, _ => rfl
  | .text _, budget + 1, _, _, _, _ => rfl
  | .list [], budget + 1, depth + 1, _, _, _ => rfl
  | .object [], budget + 1, depth + 1, _, _, _ => rfl
  | .list (item :: items), budget + 1, depth + 1, rest, enough, shallow => by
    -- the first token of the first item is not the closing bracket, so items are read
    have read := read_itemTokens item items rest
      (Nat.le_of_succ_le_succ enough) (Nat.le_of_succ_le_succ shallow)
    obtain ⟨t, ts, first, opens⟩ := item.exists_tokens
    simp only [Value.tokens, first, List.cons_append] at read ⊢
    rw [Document.read_listOpen opens, read]
    rfl
  | .object ((name, value) :: members), budget + 1, depth + 1, rest, enough, shallow => by
    have read := read_memberTokens name value members rest
      (Nat.le_of_succ_le_succ enough) (Nat.le_of_succ_le_succ shallow)
    simp only [Value.tokens, List.cons_append] at read ⊢
    rw [Document.read_objectOpen (t := .text name) nofun, read]
    rfl

/-- The row of items up to the closing bracket is read as the items. -/
theorem read_itemTokens : ∀ (item : Value) (items : List Value) {budget depth : Nat}
    (rest : List Token), (item.tokens ++ Value.furtherItems items).length ≤ budget →
      max item.nesting (Value.itemNesting items) ≤ depth →
      Document.readItems budget depth (item.tokens ++ Value.furtherItems items ++ rest) =
        (Value.itemDocuments (item :: items), .closed, rest)
  | item, items, 0, _, _, enough, _ => by
    obtain ⟨t, ts, first, -⟩ := item.exists_tokens
    simp [first] at enough
  | item, [], budget + 1, depth, rest, enough, shallow => by
    have read := read_tokens item (.listClose :: rest)
      (by simpa [Value.furtherItems] using enough) (Nat.le_trans (Nat.le_max_left ..) shallow)
    simp only [Value.furtherItems, List.append_assoc, List.cons_append, List.nil_append]
    exact Document.readItems_listClose read
  | item, next :: items, budget + 1, depth, rest, enough, shallow => by
    have lengths : item.tokens.length ≤ budget ∧
        (next.tokens ++ Value.furtherItems items).length ≤ budget := by
      simp only [Value.furtherItems, List.length_append, List.length_cons] at enough ⊢
      omega
    have further := read_itemTokens next items rest lengths.2
      (Nat.le_trans (Nat.le_max_right ..) shallow)
    have read := read_tokens item
      (.comma :: (next.tokens ++ Value.furtherItems items ++ rest)) lengths.1
      (Nat.le_trans (Nat.le_max_left ..) shallow)
    obtain ⟨t, ts, first, opens⟩ := next.exists_tokens
    simp only [Value.furtherItems, first, List.append_assoc, List.cons_append] at read further ⊢
    rw [Document.readItems_comma opens read, further]
    rfl

/-- The row of members up to the closing bracket is read as the members. -/
theorem read_memberTokens : ∀ (name : String) (value : Value) (members : List (String × Value))
    {budget depth : Nat} (rest : List Token),
      (.text name :: .colon :: (value.tokens ++ Value.furtherMembers members)).length ≤ budget →
      max value.nesting (Value.memberNesting members) ≤ depth →
      Document.readMembers budget depth
          (.text name :: .colon :: (value.tokens ++ Value.furtherMembers members) ++ rest) =
        (Value.memberDocuments ((name, value) :: members), .closed, rest)
  | name, value, [], budget + 2, depth, rest, enough, shallow => by
    have length : value.tokens.length ≤ budget + 1 := by
      simp only [Value.furtherMembers, List.length_append, List.length_cons] at enough
      omega
    have read := read_tokens value (.objectClose :: rest) length
      (Nat.le_trans (Nat.le_max_left ..) shallow)
    simp only [Value.furtherMembers, List.append_assoc, List.cons_append, List.nil_append]
    exact Document.readMembers_objectClose read
  | name, value, (next, value') :: members, budget + 2, depth, rest, enough, shallow => by
    have lengths : value.tokens.length ≤ budget + 1 ∧
        (.text next :: .colon :: (value'.tokens ++ Value.furtherMembers members)).length ≤
          budget + 1 := by
      simp only [Value.furtherMembers, List.length_append, List.length_cons] at enough ⊢
      omega
    have further := read_memberTokens next value' members rest lengths.2
      (Nat.le_trans (Nat.le_max_right ..) shallow)
    have read := read_tokens value
      (.comma :: .text next :: .colon :: (value'.tokens ++ Value.furtherMembers members ++ rest))
      lengths.1 (Nat.le_trans (Nat.le_max_left ..) shallow)
    simp only [Value.furtherMembers, List.append_assoc, List.cons_append] at read further ⊢
    rw [Document.readMembers_comma read, further]
    rfl

end

/-! ## Only the row of a value is read as the value -/

theorem Value.list_of_document {v : Value} {items : List Document} {ending : Ending}
    (h : Document.list items ending = v.document) :
    ∃ values, v = .list values ∧ items = itemDocuments values ∧ ending = .closed := by
  cases v with
  | list values =>
    cases h
    exact ⟨values, rfl, rfl, rfl⟩
  | _ => cases h

theorem Value.object_of_document {v : Value} {ending : Ending}
    {members : List (Document × Except Problem Document)}
    (h : Document.object members ending = v.document) :
    ∃ values, v = .object values ∧ members = memberDocuments values ∧ ending = .closed := by
  cases v with
  | object values =>
    cases h
    exact ⟨values, rfl, rfl, rfl⟩
  | _ => cases h

theorem Value.itemDocuments_eq_cons {values : List Value} {item : Document} {items : List Document}
    (h : item :: items = itemDocuments values) :
    ∃ first rest, values = first :: rest ∧ item = first.document ∧ items = itemDocuments rest := by
  cases values with
  | nil => cases h
  | cons first rest =>
    cases h
    exact ⟨first, rest, rfl, rfl, rfl⟩

theorem Value.memberDocuments_eq_cons {values : List (String × Value)}
    {key : Document} {value : Except Problem Document}
    {members : List (Document × Except Problem Document)}
    (h : (key, value) :: members = memberDocuments values) :
    ∃ name first rest, values = (name, first) :: rest ∧ key = .text name ∧
      value = .ok first.document ∧ members = memberDocuments rest := by
  cases values with
  | nil => cases h
  | cons member rest =>
    cases h
    exact ⟨_, _, rest, rfl, rfl, rfl, rfl⟩

theorem Value.itemDocuments_eq_nil {values : List Value} (h : [] = itemDocuments values) :
    values = [] := by
  cases values with
  | nil => rfl
  | cons => cases h

theorem Value.memberDocuments_eq_nil {values : List (String × Value)}
    (h : [] = memberDocuments values) : values = [] := by
  cases values with
  | nil => rfl
  | cons => cases h

/-- What is read is read from the row of a value. -/
structure ReadsRows (budget : Nat) : Prop where
  value : ∀ {depth : Nat} {tokens rest : List Token} {v : Value},
    Document.read budget depth tokens = (v.document, rest) →
      tokens = v.tokens ++ rest ∧ v.nesting ≤ depth
  items : ∀ {depth : Nat} {tokens rest : List Token} {items : List Value},
    Document.readItems budget depth tokens = (Value.itemDocuments items, .closed, rest) →
      ∃ first more, items = first :: more ∧
        tokens = first.tokens ++ Value.furtherItems more ++ rest ∧ Value.itemNesting items ≤ depth
  members : ∀ {depth : Nat} {tokens rest : List Token} {members : List (String × Value)},
    Document.readMembers budget depth tokens = (Value.memberDocuments members, .closed, rest) →
      ∃ name first more, members = (name, first) :: more ∧
        tokens = .text name :: .colon :: (first.tokens ++ Value.furtherMembers more) ++ rest ∧
        Value.memberNesting members ≤ depth

theorem ReadsRows.list_succ {budget : Nat} (ih : ReadsRows budget) {depth : Nat}
    {tokens rest : List Token} {v : Value}
    (h : Document.read (budget + 1) depth (.listOpen :: tokens) = (v.document, rest)) :
    .listOpen :: tokens = v.tokens ++ rest ∧ v.nesting ≤ depth := by
  match depth, tokens, h with
  | 0, _, h =>
    obtain ⟨document, -⟩ := Prod.mk.inj h
    obtain ⟨-, -, -, ending⟩ := Value.list_of_document document
    cases ending
  | _ + 1, [], h =>
    obtain ⟨document, -⟩ := Prod.mk.inj h
    obtain ⟨-, -, -, ending⟩ := Value.list_of_document document
    cases ending
  | depth + 1, t :: ts, h =>
    by_cases close : t = .listClose
    · subst close
      obtain ⟨document, rfl⟩ := Prod.mk.inj h
      obtain ⟨values, rfl, items, -⟩ := Value.list_of_document document
      obtain rfl := Value.itemDocuments_eq_nil items
      exact ⟨rfl, Nat.succ_le_succ (Nat.zero_le _)⟩
    · rw [Document.read_listOpen close] at h
      obtain ⟨document, rfl⟩ := Prod.mk.inj h
      obtain ⟨values, rfl, items, ending⟩ := Value.list_of_document document
      obtain ⟨first, more, rfl, row, shallow⟩ := ih.items (Prod.ext items (Prod.ext ending rfl))
      exact ⟨congrArg _ row, Nat.succ_le_succ shallow⟩

theorem ReadsRows.object_succ {budget : Nat} (ih : ReadsRows budget) {depth : Nat}
    {tokens rest : List Token} {v : Value}
    (h : Document.read (budget + 1) depth (.objectOpen :: tokens) = (v.document, rest)) :
    .objectOpen :: tokens = v.tokens ++ rest ∧ v.nesting ≤ depth := by
  match depth, tokens, h with
  | 0, _, h =>
    obtain ⟨document, -⟩ := Prod.mk.inj h
    obtain ⟨-, -, -, ending⟩ := Value.object_of_document document
    cases ending
  | _ + 1, [], h =>
    obtain ⟨document, -⟩ := Prod.mk.inj h
    obtain ⟨-, -, -, ending⟩ := Value.object_of_document document
    cases ending
  | depth + 1, t :: ts, h =>
    by_cases close : t = .objectClose
    · subst close
      obtain ⟨document, rfl⟩ := Prod.mk.inj h
      obtain ⟨values, rfl, members, -⟩ := Value.object_of_document document
      obtain rfl := Value.memberDocuments_eq_nil members
      exact ⟨rfl, Nat.succ_le_succ (Nat.zero_le _)⟩
    · rw [Document.read_objectOpen close] at h
      obtain ⟨document, rfl⟩ := Prod.mk.inj h
      obtain ⟨values, rfl, members, ending⟩ := Value.object_of_document document
      obtain ⟨name, first, more, rfl, row, shallow⟩ :=
        ih.members (Prod.ext members (Prod.ext ending rfl))
      exact ⟨congrArg _ row, Nat.succ_le_succ shallow⟩

theorem ReadsRows.value_succ {budget : Nat} (ih : ReadsRows budget) {depth : Nat}
    {tokens rest : List Token} {v : Value}
    (h : Document.read (budget + 1) depth tokens = (v.document, rest)) :
    tokens = v.tokens ++ rest ∧ v.nesting ≤ depth := by
  match tokens, h with
  | [], h => cases v <;> cases h
  | .listOpen :: _, h => exact ih.list_succ h
  | .objectOpen :: _, h => exact ih.object_succ h
  | .null :: _, h => cases v <;> cases h; exact ⟨rfl, Nat.zero_le _⟩
  | .boolean _ :: _, h => cases v <;> cases h; exact ⟨rfl, Nat.zero_le _⟩
  | .number _ :: _, h => cases v <;> cases h; exact ⟨rfl, Nat.zero_le _⟩
  | .text _ :: _, h => cases v <;> cases h; exact ⟨rfl, Nat.zero_le _⟩
  | .listClose :: _, h | .objectClose :: _, h | .comma :: _, h | .colon :: _, h | .stray :: _, h
  | .broken _ :: _, h | .brokenText _ :: _, h => cases v <;> cases h

theorem ReadsRows.items_succ {budget : Nat} (ih : ReadsRows budget) {depth : Nat}
    {tokens rest : List Token} {items : List Value}
    (h : Document.readItems (budget + 1) depth tokens =
      (Value.itemDocuments items, .closed, rest)) :
    ∃ first more, items = first :: more ∧
      tokens = first.tokens ++ Value.furtherItems more ++ rest ∧
      Value.itemNesting items ≤ depth := by
  rw [Document.readItems] at h
  cases read : Document.read budget depth tokens with | mk item after => ?_
  simp only [read] at h
  split at h <;> simp only [Prod.mk.injEq, reduceCtorEq, false_and, and_false] at h
  · obtain ⟨document, -, rfl⟩ := h
    obtain ⟨first, more, rfl, rfl, none⟩ := Value.itemDocuments_eq_cons document
    obtain rfl := Value.itemDocuments_eq_nil none
    obtain ⟨row, shallow⟩ := ih.value read
    refine ⟨first, [], rfl, ?_, Nat.max_le.2 ⟨shallow, Nat.zero_le _⟩⟩
    rw [row, Value.furtherItems, List.append_assoc, List.singleton_append]
  · obtain ⟨document, ending, rfl⟩ := h
    obtain ⟨first, more, rfl, rfl, some⟩ := Value.itemDocuments_eq_cons document
    obtain ⟨row, shallow⟩ := ih.value read
    obtain ⟨second, further, rfl, row', shallow'⟩ :=
      ih.items (Prod.ext some (Prod.ext ending rfl))
    refine ⟨first, _, rfl, row.trans ?_, Nat.max_le.2 ⟨shallow, shallow'⟩⟩
    rw [Value.furtherItems, List.append_assoc, List.cons_append]
    exact congrArg _ (congrArg _ row')

theorem ReadsRows.members_succ {budget : Nat} (ih : ReadsRows budget) {depth : Nat}
    {tokens rest : List Token} {members : List (String × Value)}
    (h : Document.readMembers (budget + 1) depth tokens =
      (Value.memberDocuments members, .closed, rest)) :
    ∃ name first more, members = (name, first) :: more ∧
      tokens = .text name :: .colon :: (first.tokens ++ Value.furtherMembers more) ++ rest ∧
      Value.memberNesting members ≤ depth := by
  rw [Document.readMembers] at h
  cases key : Document.read budget depth tokens with | mk name afterName => ?_
  simp only [key] at h
  -- only after a key with a colon is there more to read
  split at h
  · next afterColon =>
    cases read : Document.read budget depth afterColon with | mk value after => ?_
    simp only [read] at h
    split at h <;> simp only [Prod.mk.injEq, reduceCtorEq, false_and, and_false] at h
    · obtain ⟨document, -, rfl⟩ := h
      obtain ⟨name, first, more, rfl, rfl, value, none⟩ := Value.memberDocuments_eq_cons document
      obtain rfl := Value.memberDocuments_eq_nil none
      cases value
      obtain ⟨rowOfName, -⟩ := ih.value (v := .text name) key
      obtain ⟨row, shallow⟩ := ih.value read
      refine ⟨name, first, [], rfl, ?_, Nat.max_le.2 ⟨shallow, Nat.zero_le _⟩⟩
      rw [rowOfName, row, Value.furtherMembers, Value.tokens]
      simp only [List.cons_append, List.append_assoc, List.nil_append]
    · obtain ⟨document, ending, rfl⟩ := h
      obtain ⟨name, first, more, rfl, rfl, value, some⟩ := Value.memberDocuments_eq_cons document
      cases value
      obtain ⟨rowOfName, -⟩ := ih.value (v := .text name) key
      obtain ⟨row, shallow⟩ := ih.value read
      obtain ⟨next, second, further, rfl, row', shallow'⟩ :=
        ih.members (Prod.ext some (Prod.ext ending rfl))
      refine ⟨name, first, _, rfl, rowOfName.trans ?_, Nat.max_le.2 ⟨shallow, shallow'⟩⟩
      rw [row, Value.furtherMembers, Value.tokens]
      simp only [List.cons_append, List.append_assoc, List.nil_append] at row' ⊢
      rw [← row']
  · simp only [Prod.mk.injEq, reduceCtorEq, false_and, and_false] at h
  · simp only [Prod.mk.injEq, reduceCtorEq, false_and, and_false] at h

/-- By induction on the budget, which the reader lowers at each step. -/
theorem readsRows : ∀ budget, ReadsRows budget
  | 0 =>
    { value := fun {_ _ _ v} h => by cases v <;> cases h
      items := fun h => by cases congrArg (fun read => read.2.1) h
      members := fun h => by cases congrArg (fun read => read.2.1) h }
  | budget + 1 =>
    have ih := readsRows budget
    ⟨ih.value_succ, ih.items_succ, ih.members_succ⟩

/-- A text is a value and nothing else exactly if its tokens are the row of the value and the value
is not nested too deep. -/
theorem Document.ofBytes_eq_iff {bytes : Bytes} {v : Value} :
    Document.ofBytes bytes = (v.document, false) ↔
      Token.ofBytes bytes = v.tokens ∧ v.nesting ≤ Document.depthLimit := by
  dsimp only [Document.ofBytes]
  constructor
  · intro h
    cases read : Document.read (2 * (Token.ofBytes bytes).length + 2) Document.depthLimit
      (Token.ofBytes bytes) with | mk d rest => ?_
    simp only [read, Prod.mk.injEq, Bool.not_eq_false', List.isEmpty_iff] at h
    obtain ⟨rfl, rfl⟩ := h
    simpa only [List.append_nil] using (readsRows _).value read
  · rintro ⟨row, shallow⟩
    have read : Document.read (2 * v.tokens.length + 2) Document.depthLimit (v.tokens ++ []) = _ :=
      read_tokens v [] (by omega) shallow
    rw [List.append_nil] at read
    simp only [row, read]
    rfl

namespace Value

mutual

theorem document_injective : ∀ {v w : Value}, v.document = w.document → v = w
  | .null, w, h => by cases w <;> cases h; rfl
  | .boolean _, w, h => by cases w <;> cases h; rfl
  | .number _, w, h => by cases w <;> cases h; rfl
  | .text _, w, h => by cases w <;> cases h; rfl
  | .list items, w, h => by
    obtain ⟨items', rfl, same, -⟩ := list_of_document h
    rw [itemDocuments_injective same]
  | .object members, w, h => by
    obtain ⟨members', rfl, same, -⟩ := object_of_document h
    rw [memberDocuments_injective same]

theorem itemDocuments_injective : ∀ {items items' : List Value},
    itemDocuments items = itemDocuments items' → items = items'
  | [], _, h => (itemDocuments_eq_nil h).symm
  | item :: items, _, h => by
    obtain ⟨item', items', rfl, first, rest⟩ := itemDocuments_eq_cons h
    rw [document_injective first, itemDocuments_injective rest]

theorem memberDocuments_injective : ∀ {members members' : List (String × Value)},
    memberDocuments members = memberDocuments members' → members = members'
  | [], _, h => (memberDocuments_eq_nil h).symm
  | (_, value) :: members, _, h => by
    obtain ⟨name, value', members', rfl, first, same, rest⟩ := memberDocuments_eq_cons h
    cases first
    rw [document_injective (Except.ok.inj same), memberDocuments_injective rest]

end

/-- Different values have different rows. -/
theorem tokens_injective {v w : Value} (h : v.tokens = w.tokens) : v = w := by
  have read {u : Value} (shallow : u.nesting ≤ max v.nesting w.nesting) :
      Document.read u.tokens.length (max v.nesting w.nesting) (u.tokens ++ []) =
        (u.document, []) := read_tokens u [] (Nat.le_refl _) shallow
  have readsV := read (Nat.le_max_left ..)
  rw [h, read (Nat.le_max_right ..)] at readsV
  exact document_injective (congrArg Prod.fst readsV).symm

/-! ## The order of members -/

/-- Values that differ in the order of the members of objects, at any depth. -/
inductive Rearranged : Value → Value → Prop
  | refl (v : Value) : Rearranged v v
  | trans {u v w : Value} : Rearranged u v → Rearranged v w → Rearranged u w
  | members {ms ms' : List (String × Value)} : ms.Perm ms' → Rearranged (.object ms) (.object ms')
  | inItem (before after : List Value) {v w : Value} : Rearranged v w →
    Rearranged (.list (before ++ v :: after)) (.list (before ++ w :: after))
  | inMember (before after : List (String × Value)) (name : String) {v w : Value} :
    Rearranged v w →
    Rearranged (.object (before ++ (name, v) :: after)) (.object (before ++ (name, w) :: after))

theorem Rearranged.symm {v w : Value} (h : Rearranged v w) : Rearranged w v := by
  induction h with
  | refl v => exact .refl v
  | trans _ _ ih ih' => exact ih'.trans ih
  | members perm => exact .members perm.symm
  | inItem before after _ ih => exact ih.inItem before after
  | inMember before after name _ ih => exact ih.inMember before after name

@[simp] theorem itemNesting_append (items items' : List Value) :
    itemNesting (items ++ items') = max (itemNesting items) (itemNesting items') := by
  induction items with
  | nil => simp [itemNesting]
  | cons item items ih => simp [itemNesting, ih, Nat.max_assoc]

@[simp] theorem memberNesting_append (members members' : List (String × Value)) :
    memberNesting (members ++ members') = max (memberNesting members) (memberNesting members') := by
  induction members with
  | nil => simp [memberNesting]
  | cons member members ih => simp [memberNesting, ih, Nat.max_assoc]

theorem memberNesting_perm {ms ms' : List (String × Value)} (h : ms.Perm ms') :
    memberNesting ms = memberNesting ms' := by
  induction h with
  | nil => rfl
  | cons _ _ ih => simp only [memberNesting, ih]
  | swap => simp only [memberNesting, Nat.max_left_comm]
  | trans _ _ ih ih' => exact ih.trans ih'

theorem Rearranged.nesting_eq {v w : Value} (h : Rearranged v w) : v.nesting = w.nesting := by
  induction h with
  | refl => rfl
  | trans _ _ ih ih' => exact ih.trans ih'
  | members perm => simp only [nesting, memberNesting_perm perm]
  | inItem before after _ ih => simp only [nesting, itemNesting_append, itemNesting, ih]
  | inMember before after name _ ih => simp only [nesting, memberNesting_append, memberNesting, ih]

end Value
end PatchTrial.Json
