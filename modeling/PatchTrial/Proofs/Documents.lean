import PatchTrial.Proofs.Json.Places
import PatchTrial.Proofs.Validator.Members
import PatchTrial.Settings

/-!
Documents are read by the names of members. Where the members of an object stand does not matter,
at any depth of a document, and neither does white space; a member with a name that is not known is
refused where the record is strict and passed over in a check; a known name that is repeated is
refused everywhere.

What is proved:
  1. `Regular.orderFree`: a regular decoder reads rearranged texts alike.
  2. `CheckPlace.agrees`, `CheckPlace.reads`: checks where they stand in a validator.
  3. `KeyPlace.reads`: where the key of a check comes from.
  4. `documents_by_name`: all of it for validators and settings.
-/
namespace PatchTrial

open Json

namespace Json

/-! ## Texts -/

/-- A reader of texts reads a text and every rearrangement of it alike. -/
def OrderFree {α : Type} (read : Bytes → Except Problem α) : Prop :=
  ∀ text x, read text = .ok x → ∃ v : Value, v.Spelled text ∧
    ∀ w text', v.Rearranged w → w.Spelled text' → read text' = .ok x

/-- A reader of texts refuses every text that spells a value. -/
def Refused {α : Type} (read : Bytes → Except Problem α) (v : Value) : Prop :=
  ∀ text, v.Spelled text → ∃ p, read text = .error p

theorem Decoder.Regular.orderFree {α : Type} {read : Decoder α} (regular : read.Regular) :
    OrderFree (Decoder.ofBytes read) := by
  intro text x ok
  obtain ⟨v, spelled, shallow, ok⟩ := regular.ofBytes_eq_ok_iff.1 ok
  refine ⟨v, spelled, fun w text' rearranged spelled' => ?_⟩
  refine (regular.ofBytes_spelled spelled').2 ⟨rearranged.nesting_eq ▸ shallow, ?_⟩
  exact (regular.agrees rearranged x).1 ok

theorem Decoder.Regular.refused {α : Type} {read : Decoder α} (regular : read.Regular) {v : Value}
    (h : ∀ x, read v.document ≠ .ok x) : Refused (Decoder.ofBytes read) v := by
  intro text spelled
  cases ok : Decoder.ofBytes read text with
  | error p => exact ⟨p, rfl⟩
  | ok x => exact absurd ((regular.ofBytes_spelled spelled).1 ok).2 (h x)

theorem Decoder.Regular.ofBytes_congr {α : Type} {read : Decoder α} (regular : read.Regular)
    {v w : Value} (h : read.Agrees v w) (nesting : v.nesting ≤ w.nesting)
    (shallow : w.nesting ≤ Document.depthLimit) {text text' : Bytes} (spelled : v.Spelled text)
    (spelled' : w.Spelled text') (x : α) :
    Decoder.ofBytes read text = .ok x ↔ Decoder.ofBytes read text' = .ok x := by
  rw [regular.ofBytes_spelled spelled, regular.ofBytes_spelled spelled']
  exact and_congr (iff_of_true (Nat.le_trans nesting shallow) shallow) (h x)

end Json

/-! ## Settings -/

/-- Settings are stored by the names of members. -/
theorem Settings.regular : Settings.record.Regular where
  distinct := by decide
  independent := by
    simp only [Settings.record, List.pairwise_cons, List.Pairwise.nil, List.forall_mem_cons,
      List.not_mem_nil, false_implies, implies_true, and_true]
    refine ⟨⟨?_, ?_, ?_, ?_⟩, ⟨?_, ?_, ?_⟩, ⟨?_, ?_⟩, ?_⟩ <;>
      exact Record.Field.Stores.independent ⟨fun _ _ => rfl⟩ ⟨fun _ _ => rfl⟩ fun _ _ _ => rfl
  stores := by
    simp only [Settings.record, List.forall_mem_cons, List.not_mem_nil, false_implies,
      implies_true, and_true]
    exact ⟨⟨_, _, _, ⟨fun _ _ => rfl⟩, Decoder.string_regular.optional⟩,
      ⟨_, _, _, ⟨fun _ _ => rfl⟩, Decoder.string_regular.listOf.optional⟩,
      ⟨_, _, _, ⟨fun _ _ => rfl⟩, Decoder.boolean_regular.optional⟩,
      ⟨_, _, _, ⟨fun _ _ => rfl⟩, (Decoder.natural_regular _).optional⟩,
      ⟨_, _, _, ⟨fun _ _ => rfl⟩, (Decoder.natural_regular _).optional⟩⟩

/-! ## Validators -/

namespace Validator

variable {i j : Nat} {C : Value → Value} {v w : Value} {s : Spec}

/-- Where the shape with an index stands in a validator. -/
def ShapePlace (i : Nat) (C : Value → Value) : Prop := Spec.record.InList "shapes" i C

/-- Where the requirement with an index stands in a validator. -/
def RequirementPlace (i : Nat) (C : Value → Value) : Prop := Spec.record.InList "require" i C

/-- Where a check stands in a validator, by the index of its shape and its own in the shape. -/
inductive CheckPlace (i j : Nat) : (Value → Value) → Prop
  | mk {outer inner : Value → Value} (h : ShapePlace i outer)
    (h' : ShapeSpec.record.InList "checks" j inner) : CheckPlace i j fun v => outer (inner v)

/-- Where the key of a check stands in it. -/
inductive KeyPlace : (Value → Value) → Prop
  | member (before after : List (String × Value)) :
    KeyPlace fun v => .object (before ++ ("key", v) :: after)
  | item (kind : Value) (after : List Value) : KeyPlace fun v => .list (kind :: v :: after)

theorem ShapePlace.agrees (place : ShapePlace i C) (h : ShapeSpec.record.decode.Agrees v w) :
    Spec.record.decode.Agrees (C v) (C w) :=
  Record.InList.agrees Spec.regular rfl ⟨fun _ _ => rfl⟩ place h

theorem ShapePlace.reads (place : ShapePlace i C) (h : Spec.record.decode (C v).document = .ok s) :
    ∃ shape, s.shapes[i]? = some shape ∧ ShapeSpec.record.decode v.document = .ok shape := by
  obtain ⟨s₀, shapes, shape, rfl, found⟩ :=
    Record.InList.reads Spec.regular rfl ⟨fun _ _ => rfl⟩ place h
  exact ⟨shape, found⟩

theorem RequirementPlace.reads (place : RequirementPlace i C)
    (h : Spec.record.decode (C v).document = .ok s) :
    ∃ q, s.require[i]? = some q ∧ Requirement.decode v.document = .ok q := by
  obtain ⟨s₀, require, q, rfl, found⟩ :=
    Record.InList.reads Spec.regular rfl ⟨fun _ _ => rfl⟩ place h
  exact ⟨q, found⟩

theorem CheckPlace.agrees (place : CheckPlace i j C) (h : Check.decode.Agrees v w) :
    Spec.record.decode.Agrees (C v) (C w) := by
  cases place with
  | mk outer inner =>
    exact outer.agrees (Record.InList.agrees ShapeSpec.regular rfl ⟨fun _ _ => rfl⟩ inner h)

theorem CheckPlace.reads (place : CheckPlace i j C)
    (h : Spec.record.decode (C v).document = .ok s) :
    ∃ shape c, s.shapes[i]? = some shape ∧ shape.checks[j]? = some c ∧
      Check.decode v.document = .ok c := by
  cases place with
  | mk outer inner =>
    obtain ⟨shape, found, ok⟩ := outer.reads h
    obtain ⟨s₀, checks, c, rfl, found'⟩ :=
      Record.InList.reads ShapeSpec.regular rfl ⟨fun _ _ => rfl⟩ inner ok
    exact ⟨_, c, found, found'⟩

theorem CheckPlace.nesting_mono (place : CheckPlace i j C) (h : v.nesting ≤ w.nesting) :
    (C v).nesting ≤ (C w).nesting := by
  cases place with
  | mk outer inner => exact Record.InList.nesting_mono outer (inner.nesting_mono h)

theorem CheckKind.field?_key (k : CheckKind) : k.record.field? "key" = some CheckKind.keyField := by
  cases k <;> rfl

theorem CheckKind.named_cons (k : CheckKind) (v : Value) (items : List Value) :
    ∃ ms, k.record.named (v :: items) = ("key", v) :: ms := by
  cases k <;> exact ⟨_, rfl⟩

/-- The key of a check is read from the value in its place. -/
theorem KeyPlace.reads {K : Value → Value} (place : KeyPlace K) {c : Check}
    (h : Check.decode (K v).document = .ok c) : KeyRef.decode v.document = .ok c.key := by
  have stored {k : CheckKind} {parts : CheckParts} {before after : List (String × Value)}
      (fields : k.record.ofObject ((before ++ ("key", v) :: after).map Value.memberDocument)
        .closed = .ok parts) : KeyRef.decode v.document = .ok parts.key := by
    obtain ⟨parts₀, read⟩ := k.record_regular.exists_last k.field?_key fields
    obtain ⟨key, ok, rfl⟩ := CheckKind.keyField_stores.read_eq_ok_iff.1 read
    exact ok
  cases place with
  | member before after =>
    obtain ⟨k, parts, -, fields, rfl⟩ := Check.decode_object_eq_ok_iff.1 h
    have other : "key" ≠ kindKey := by decide
    rw [Check.others_append, Check.others_cons_other other] at fields
    exact stored fields
  | item kind after =>
    obtain ⟨k, parts, -, fields, rfl⟩ := Check.decode_list_eq_ok_iff.1 h
    rw [k.record_regular.ofWholeList_eq_ok_iff] at fields
    obtain ⟨ms, named⟩ := k.named_cons v after
    rw [named] at fields
    exact @stored k parts [] ms fields.2

theorem Requirement.not_faulty {ms : List (String × Value)} {q : Requirement}
    (h : Requirement.decode (Value.object ms).document = .ok q) :
    ¬ Faulty ["changed", "seen"] ms := by
  obtain ⟨name, key, single, known, -⟩ := Requirement.decode_document_eq_ok_iff.1 h
  obtain rfl := Value.object.inj single
  rintro ⟨n, ⟨mem, unknown⟩ | ⟨-, repeated⟩⟩
  · obtain rfl : n = name := by simpa using mem
    exact unknown known
  · have bound := List.count_le_length (a := n) (l := [name])
    exact absurd bound (Nat.not_le.2 repeated)

end Validator

open Validator

/-- What it means that documents are read by the names of members. -/
structure ReadByName : Prop where
  /-- The order of members and white space do not matter in a validator. -/
  spec : OrderFree Spec.ofBytes
  /-- Nor do they in settings. -/
  settings : OrderFree Settings.ofBytes
  /-- An unknown name or a known one that is repeated is refused at the top of a validator, -/
  faultySpec {ms : List (String × Value)} : Faulty Spec.record.names ms →
    Refused Spec.ofBytes (.object ms)
  /-- at the top of settings, -/
  faultySettings {ms : List (String × Value)} : Faulty Settings.record.names ms →
    Refused Settings.ofBytes (.object ms)
  /-- in a shape, -/
  faultyShape {i : Nat} {C : Value → Value} {ms : List (String × Value)} : ShapePlace i C →
    Faulty ShapeSpec.record.names ms → Refused Spec.ofBytes (C (.object ms))
  /-- and in a requirement. -/
  faultyRequirement {i : Nat} {C : Value → Value} {ms : List (String × Value)} :
    RequirementPlace i C → Faulty ["changed", "seen"] ms → Refused Spec.ofBytes (C (.object ms))
  /-- In a check a name is refused if it is repeated and declared for the check, -/
  faultyCheck {i j : Nat} {C : Value → Value} {ms : List (String × Value)} {n : String} :
    CheckPlace i j C → Check.Declares ms n → 2 ≤ (ms.map Prod.fst).count n →
    Refused Spec.ofBytes (C (.object ms))
  /-- and a member that is not declared changes nothing, unless it is nested too deep. -/
  addedToCheck {i j : Nat} {C : Value → Value} {before after : List (String × Value)} {n : String}
    {v : Value} {text text' : Bytes} {s : Spec} : CheckPlace i j C →
    ¬ Check.Declares (before ++ after) n →
    (C (.object (before ++ (n, v) :: after))).nesting ≤ Document.depthLimit →
    (C (.object (before ++ after))).Spelled text →
    (C (.object (before ++ (n, v) :: after))).Spelled text' →
    (Spec.ofBytes text = .ok s ↔ Spec.ofBytes text' = .ok s)
  /-- The key of a check is a group exactly if it is a whole number, and a name exactly if it is a
  text. -/
  key {i j : Nat} {C K : Value → Value} {v : Value} {text : Bytes} {s : Spec} : CheckPlace i j C →
    KeyPlace K → (C (K v)).Spelled text → Spec.ofBytes text = .ok s →
    ∃ shape c, s.shapes[i]? = some shape ∧ shape.checks[j]? = some c ∧
      (∀ n, c.key = .group n ↔ v = .number (.natural n)) ∧
      ∀ name, c.key = .named name ↔ v = .text name
  /-- Whole numbers are digits without a sign, a point or an exponent, up to the largest that fits a
  machine word. -/
  group {n : Nat} {piece : Bytes} : Token.Lexeme (.number (.natural n)) piece ↔
    Token.Numeral piece ∧ Token.digitsValue piece = n ∧ n ≤ Token.wordLimit
  /-- Texts stand between quotes. -/
  name {s : String} {piece : Bytes} : Token.Lexeme (.text s) piece ↔
    ∃ inner content, piece = Token.byte '"' :: inner ∧ Token.TextPiece inner content ∧
      Utf8.decode? content = some s

/-- Validators and settings are read by the names of members. -/
theorem documents_by_name : ReadByName where
  spec := (Spec.regular.decode rfl).orderFree
  settings := (Settings.regular.decode rfl).orderFree
  faultySpec faulty := (Spec.regular.decode rfl).refused fun _ ok => Record.not_faulty rfl ok faulty
  faultySettings faulty :=
    (Settings.regular.decode rfl).refused fun _ ok => Record.not_faulty rfl ok faulty
  faultyShape place faulty := (Spec.regular.decode rfl).refused fun _ ok => by
    obtain ⟨shape, -, ok⟩ := place.reads ok
    exact Record.not_faulty rfl ok faulty
  faultyRequirement place faulty := (Spec.regular.decode rfl).refused fun _ ok => by
    obtain ⟨q, -, ok⟩ := place.reads ok
    exact Requirement.not_faulty ok faulty
  faultyCheck place declared repeated := (Spec.regular.decode rfl).refused fun _ ok => by
    obtain ⟨shape, c, -, -, ok⟩ := place.reads ok
    exact absurd (Check.once ok declared) (Nat.not_le.2 repeated)
  addedToCheck place other shallow spelled spelled' := by
    refine (Spec.regular.decode rfl).ofBytes_congr (place.agrees (Check.agrees_added other _))
      (place.nesting_mono ?_) shallow spelled spelled' _
    simp only [Value.nesting, Value.memberNesting_append, Value.memberNesting]
    omega
  key place keyPlace spelled ok := by
    obtain ⟨-, ok⟩ := ((Spec.regular.decode rfl).ofBytes_spelled spelled).1 ok
    obtain ⟨shape, c, shapeFound, checkFound, ok⟩ := place.reads ok
    refine ⟨shape, c, shapeFound, checkFound, ?_⟩
    obtain ⟨n, rfl, key⟩ | ⟨s, rfl, key⟩ := KeyRef.decode_eq_ok_iff.1 (keyPlace.reads ok)
    all_goals
      rw [key]
      exact ⟨fun m => by simp, fun name => by simp⟩
  group := Token.lexeme_natural_iff
  name := Token.lexeme_text_iff

example : Spec.record.names = ["preset", "shapes", "require"] ∧
    ShapeSpec.record.names = ["prefix", "pattern", "checks"] := ⟨rfl, rfl⟩

/-- A text with a check that begins with its kind. -/
def kindFirst : Bytes := Utf8.encode
  ("\x7b\"shapes\":[\x7b\"prefix\":\"a\"," ++
    "\"checks\":[\x7b\"kind\":\"appears\",\"key\":1\x7d]\x7d]\x7d")

/-- The same with the members of objects in another order and with white space. -/
def kindLast : Bytes := Utf8.encode
  ("\x7b \"shapes\": [\x7b\"checks\": [\x7b\"key\": 1, \"kind\": \"appears\"\x7d], " ++
    "\"prefix\": \"a\"\x7d] \x7d")

def kindFirstValue : Value :=
  .object [("shapes", .list [.object [("prefix", .text "a"),
    ("checks", .list [.object [("kind", .text "appears"), ("key", .number (.natural 1))]])]])]

def kindLastValue : Value :=
  .object [("shapes", .list [.object [("checks",
    .list [.object [("key", .number (.natural 1)), ("kind", .text "appears")]]),
    ("prefix", .text "a")]])]

theorem kinds_rearranged : kindFirstValue.Rearranged kindLastValue := by
  refine .inMember [] [] "shapes" (.inItem [] [] ?_)
  exact .trans (.inMember [_] [] "checks" (.inItem [] [] (.members (.swap ..))))
    (.members (.swap ..))

/-- Both texts are read as the same validator. -/
theorem kind_may_be_last :
    ∃ s, Spec.ofBytes kindFirst = .ok s ∧ Spec.ofBytes kindLast = .ok s := by
  have first : Spec.ofBytes kindFirst =
      .ok { shapes := [⟨"a", none, [⟨.group 1, .appears⟩]⟩] } := by decide +kernel
  have spelledFirst : kindFirstValue.Spelled kindFirst :=
    (Token.ofBytes_eq_iff kindFirstValue.tokens_whole).1 (by decide +kernel)
  have spelledLast : kindLastValue.Spelled kindLast :=
    (Token.ofBytes_eq_iff kindLastValue.tokens_whole).1 (by decide +kernel)
  obtain ⟨v, spelled, reads⟩ := documents_by_name.spec kindFirst _ first
  obtain rfl := spelled.unique spelledFirst
  exact ⟨_, first, reads _ kindLast kinds_rearranged spelledLast⟩

end PatchTrial
