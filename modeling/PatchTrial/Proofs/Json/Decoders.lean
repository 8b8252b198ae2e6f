import Mathlib.Data.List.Forall2
import Mathlib.Data.List.Perm.Basic
import PatchTrial.Json.Decoder
import PatchTrial.Proofs.Json.Lexemes

/-!
Decoders that do not look at the order of members. A regular decoder takes nothing but values, and
it takes rearranged values for the same. Decoders of scalars are regular, and what is put together
from regular decoders is regular.

What is proved:
  1. `Document.exists_value`: nothing is wrong with values only.
  2. `Regular.optional`, `Regular.listOf`: regular decoders by parts.
  3. `Regular.ofBytes_eq_ok_iff`: what a regular decoder reads from a text.
-/
namespace PatchTrial.Json

theorem map_eq_ok {ε α β : Type} {x : Except ε α} {f : α → β} {b : β} :
    x.map f = .ok b ↔ ∃ a, x = .ok a ∧ f a = b := by
  cases x with
  | error e => exact ⟨nofun, nofun⟩
  | ok a => exact ⟨fun h => ⟨a, rfl, Except.ok.inj h⟩, fun ⟨_, rfl, h⟩ => congrArg _ h⟩

/-! ## Documents of values -/

namespace Value

@[simp] theorem itemDocuments_eq_map (items : List Value) :
    itemDocuments items = items.map document := by
  induction items with
  | nil => rfl
  | cons item items ih => rw [itemDocuments, ih, List.map_cons]

def memberDocument (m : String × Value) : Document × Except Problem Document :=
  (.text m.1, .ok m.2.document)

@[simp] theorem memberDocuments_eq_map (members : List (String × Value)) :
    memberDocuments members = members.map memberDocument := by
  induction members with
  | nil => rfl
  | cons member members ih => rw [memberDocuments, ih, List.map_cons]; rfl

theorem exists_items {items : List Document} (h : ∀ d ∈ items, ∃ v : Value, d = v.document) :
    ∃ values : List Value, items = values.map document := by
  induction items with
  | nil => exact ⟨[], rfl⟩
  | cons item items ih =>
    obtain ⟨⟨v, rfl⟩, further⟩ := List.forall_mem_cons.1 h
    obtain ⟨values, rfl⟩ := ih further
    exact ⟨v :: values, rfl⟩

end Value

namespace Document

theorem key_eq_ok {d : Document} {name : String} (h : d.key = .ok name) : d = .text name := by
  cases d <;> cases h
  rfl

theorem checkList_eq_ok {e : Ending} (h : e.checkList = .ok ()) : e = .closed := by
  cases e <;> cases h
  rfl

theorem checkObject_eq_ok {e : Ending} (h : e.checkObject = .ok ()) : e = .closed := by
  cases e <;> cases h
  rfl

mutual

/-- Nothing is wrong with values only. -/
theorem exists_value : ∀ {d : Document}, d.check = .ok () → ∃ v : Value, d = v.document
  | .absent, h | .broken _, h | .brokenText _, h => by cases h
  | .null, _ => ⟨.null, rfl⟩
  | .boolean b, _ => ⟨.boolean b, rfl⟩
  | .number n, _ => ⟨.number n, rfl⟩
  | .text s, _ => ⟨.text s, rfl⟩
  | .list items ending, h => by
    rw [check, bind_eq_ok] at h
    obtain ⟨⟨⟩, all, ends⟩ := h
    obtain ⟨values, rfl⟩ := exists_itemValues all
    obtain rfl := checkList_eq_ok ends
    exact ⟨.list values, by simp [Value.document]⟩
  | .object members ending, h => by
    rw [check, bind_eq_ok] at h
    obtain ⟨⟨⟩, all, ends⟩ := h
    obtain ⟨values, rfl⟩ := exists_memberValues all
    obtain rfl := checkObject_eq_ok ends
    exact ⟨.object values, by simp [Value.document]⟩

theorem exists_itemValues : ∀ {items : List Document}, checkItems items = .ok () →
    ∃ values : List Value, items = values.map Value.document
  | [], _ => ⟨[], rfl⟩
  | item :: items, h => by
    rw [checkItems, bind_eq_ok] at h
    obtain ⟨⟨⟩, first, further⟩ := h
    obtain ⟨v, rfl⟩ := exists_value first
    obtain ⟨values, rfl⟩ := exists_itemValues further
    exact ⟨v :: values, rfl⟩

theorem exists_memberValues : ∀ {members : List (Document × Except Problem Document)},
    checkMembers members = .ok () →
      ∃ values : List (String × Value), members = values.map Value.memberDocument
  | [], _ => ⟨[], rfl⟩
  | (name, .error p) :: _, h => by
    rw [checkMembers, bind_eq_ok] at h
    obtain ⟨-, -, h⟩ := h
    cases h
  | (name, .ok value) :: members, h => by
    rw [checkMembers, bind_eq_ok] at h
    obtain ⟨name, key, h⟩ := h
    obtain ⟨⟨⟩, first, further⟩ := bind_eq_ok.1 h
    obtain rfl := key_eq_ok key
    obtain ⟨v, rfl⟩ := exists_value first
    obtain ⟨values, rfl⟩ := exists_memberValues further
    exact ⟨(name, v) :: values, rfl⟩

end

mutual

theorem check_document : ∀ v : Value, v.document.check = .ok ()
  | .null | .boolean _ | .number _ | .text _ => rfl
  | .list items => bind_eq_ok.2 ⟨(), checkItems_documents items, rfl⟩
  | .object members => bind_eq_ok.2 ⟨(), checkMembers_documents members, rfl⟩

theorem checkItems_documents : ∀ items : List Value,
    checkItems (Value.itemDocuments items) = .ok ()
  | [] => rfl
  | item :: items =>
    bind_eq_ok.2 ⟨(), check_document item, checkItems_documents items⟩

theorem checkMembers_documents : ∀ members : List (String × Value),
    checkMembers (Value.memberDocuments members) = .ok ()
  | [] => rfl
  | (_, value) :: members =>
    bind_eq_ok.2 ⟨_, rfl, bind_eq_ok.2 ⟨(), check_document value, checkMembers_documents members⟩⟩

end

end Document

/-! ## Regular decoders -/

namespace Value

/-- Whether a value is neither a list nor an object. -/
def isScalar : Value → Bool
  | list _ => false
  | object _ => false
  | _ => true

theorem Rearranged.eq_of_scalar {v w : Value} (h : Rearranged v w) (scalar : v.isScalar = true) :
    v = w := by
  induction h with
  | refl => rfl
  | trans _ _ ih ih' =>
    obtain rfl := ih scalar
    exact ih' scalar
  | _ => cases scalar

/-- An object with one member that is scalar has no other arrangement. -/
theorem Rearranged.eq_of_single {v w : Value} (h : Rearranged v w) {name : String} {u : Value}
    (scalar : u.isScalar = true) (single : v = .object [(name, u)]) : v = w := by
  induction h with
  | refl => rfl
  | trans _ _ ih ih' =>
    obtain rfl := ih single
    exact ih' single
  | members perm =>
    cases single
    rw [List.perm_singleton.1 perm.symm]
  | inItem => cases single
  | inMember before after name' inner =>
    rw [Value.object.injEq, List.append_eq_singleton_iff] at single
    obtain ⟨rfl, same⟩ | ⟨-, same⟩ := single
    · cases same
      rw [inner.eq_of_scalar scalar]
    · cases same

end Value

namespace Decoder

variable {α : Type}

/-- A decoder takes one value for the same as another. -/
def Agrees (read : Decoder α) (v w : Value) : Prop :=
  ∀ x, read v.document = .ok x ↔ read w.document = .ok x

/-- A decoder that takes nothing but values and does not look at the order of members. -/
structure Regular (read : Decoder α) : Prop where
  value : ∀ {d x}, read d = .ok x → ∃ v : Value, d = v.document
  agrees : ∀ {v w : Value}, v.Rearranged w → read.Agrees v w

theorem Agrees.trans {read : Decoder α} {u v w : Value} (h : read.Agrees u v)
    (h' : read.Agrees v w) : read.Agrees u w := fun x => (h x).trans (h' x)

theorem Agrees.of_none {read : Decoder α} {v w : Value} (h : ∀ x, read v.document ≠ .ok x)
    (h' : ∀ x, read w.document ≠ .ok x) : read.Agrees v w :=
  fun x => ⟨fun ok => absurd ok (h x), fun ok => absurd ok (h' x)⟩

theorem regular_of_scalar {read : Decoder α}
    (h : ∀ {d x}, read d = .ok x → ∃ v : Value, d = v.document ∧ v.isScalar = true) :
    read.Regular where
  value ok := by
    obtain ⟨v, same, -⟩ := h ok
    exact ⟨v, same⟩
  agrees {v w} rearranged x := by
    -- whichever of the two is taken is a scalar, and then it is the other
    have scalar {v : Value} (ok : read v.document = .ok x) : v.isScalar = true := by
      obtain ⟨u, same, scalar⟩ := h ok
      rwa [Value.document_injective same]
    constructor
    · intro ok
      rwa [← rearranged.eq_of_scalar (scalar ok)]
    · intro ok
      rwa [← rearranged.symm.eq_of_scalar (scalar ok)]

theorem refuse_ne_ok (expected : String) (d : Document) (x : α) :
    d.refuse expected ≠ .ok x := by
  cases d <;> nofun

theorem string_eq_ok_iff {d : Document} {s : String} : string d = .ok s ↔ d = .text s := by
  constructor
  · intro h
    unfold string at h
    split at h
    · cases h
      rfl
    · exact absurd h (refuse_ne_ok _ _ _)
  · rintro rfl
    rfl

theorem string_regular : string.Regular :=
  regular_of_scalar fun h => ⟨.text _, string_eq_ok_iff.1 h, rfl⟩

theorem boolean_regular : boolean.Regular := by
  refine regular_of_scalar fun {d x} h => ?_
  unfold boolean at h
  split at h
  · exact ⟨.boolean _, rfl, rfl⟩
  · exact absurd h (refuse_ne_ok _ _ _)

theorem natural_regular (type : String) : (natural type).Regular := by
  refine regular_of_scalar fun {d x} h => ?_
  unfold natural at h
  split at h
  · exact ⟨.number (.natural _), rfl, rfl⟩
  · cases h
  · exact absurd h (refuse_ne_ok _ _ _)

theorem optional_document (read : Decoder α) {v : Value} (h : v ≠ .null) :
    read.optional v.document = (read v.document).map some := by
  cases v <;> first | rfl | exact absurd rfl h

theorem Agrees.optional {read : Decoder α} {v w : Value} (hv : v ≠ .null) (hw : w ≠ .null)
    (h : read.Agrees v w) : read.optional.Agrees v w := by
  intro x
  rw [optional_document read hv, optional_document read hw, map_eq_ok, map_eq_ok]
  exact exists_congr fun a => and_congr_left fun _ => h a

theorem Regular.optional {read : Decoder α} (h : read.Regular) : read.optional.Regular where
  value {d x} ok := by
    unfold Decoder.optional at ok
    split at ok
    · exact ⟨.null, rfl⟩
    · obtain ⟨a, ok, -⟩ := map_eq_ok.1 ok
      exact h.value ok
  agrees {v w} rearranged := by
    by_cases null : v = .null
    · subst null
      obtain rfl := rearranged.eq_of_scalar rfl
      exact fun _ => Iff.rfl
    · -- `null` has no other arrangement, so none of the two is
      refine (h.agrees rearranged).optional null ?_
      rintro rfl
      exact null (rearranged.symm.eq_of_scalar rfl).symm

theorem mapM_eq_ok_iff {read : Decoder α} {items : List Document} {xs : List α} :
    items.mapM read = .ok xs ↔ List.Forall₂ (fun d x => read d = .ok x) items xs := by
  induction items generalizing xs with
  | nil =>
    rw [List.forall₂_nil_left_iff]
    exact ⟨fun h => (Except.ok.inj h).symm, fun h => h ▸ rfl⟩
  | cons item items ih =>
    rw [List.mapM_cons, List.forall₂_cons_left_iff]
    constructor
    · intro h
      obtain ⟨x, first, h⟩ := bind_eq_ok.1 h
      obtain ⟨xs, further, h⟩ := bind_eq_ok.1 h
      exact ⟨x, xs, first, ih.1 further, (Except.ok.inj h).symm⟩
    · rintro ⟨x, xs, first, further, rfl⟩
      exact bind_eq_ok.2 ⟨x, first, bind_eq_ok.2 ⟨xs, ih.2 further, rfl⟩⟩

/-- A list is read item by item. -/
theorem listOf_eq_ok_iff {read : Decoder α} {d : Document} {xs : List α} :
    listOf read d = .ok xs ↔
      ∃ items, d = .list items .closed ∧ List.Forall₂ (fun d x => read d = .ok x) items xs := by
  constructor
  · intro h
    unfold listOf at h
    split at h
    · obtain ⟨values, all, h⟩ := bind_eq_ok.1 h
      obtain ⟨⟨⟩, ends, h⟩ := bind_eq_ok.1 h
      obtain rfl := Document.checkList_eq_ok ends
      cases h
      exact ⟨_, rfl, mapM_eq_ok_iff.1 all⟩
    · exact absurd h (refuse_ne_ok _ _ _)
  · rintro ⟨items, rfl, all⟩
    exact bind_eq_ok.2 ⟨xs, mapM_eq_ok_iff.2 all, rfl⟩

theorem listOf_list_eq_ok_iff {read : Decoder α} {items : List Value} {xs : List α} :
    listOf read (Value.list items).document = .ok xs ↔
      List.Forall₂ (fun v x => read v.document = .ok x) items xs := by
  rw [listOf_eq_ok_iff, Value.document, Value.itemDocuments_eq_map]
  constructor
  · rintro ⟨_, same, all⟩
    cases same
    exact List.forall₂_map_left_iff.1 all
  · intro all
    exact ⟨_, rfl, List.forall₂_map_left_iff.2 all⟩

theorem Agrees.listOf {read : Decoder α} {v w : Value} (h : read.Agrees v w)
    (before after : List Value) :
    (listOf read).Agrees (.list (before ++ v :: after)) (.list (before ++ w :: after)) := by
  intro xs
  rw [listOf_list_eq_ok_iff, listOf_list_eq_ok_iff]
  induction before generalizing xs with
  | nil =>
    rw [List.nil_append, List.nil_append, List.forall₂_cons_left_iff, List.forall₂_cons_left_iff]
    exact exists₂_congr fun x _ => and_congr_left fun _ => h x
  | cons u before ih =>
    rw [List.cons_append, List.cons_append, List.forall₂_cons_left_iff,
      List.forall₂_cons_left_iff]
    exact exists₂_congr fun x xs => and_congr_right fun _ => and_congr_left fun _ => ih xs

theorem Regular.listOf {read : Decoder α} (h : read.Regular) : (listOf read).Regular where
  value {d xs} ok := by
    obtain ⟨items, rfl, all⟩ := listOf_eq_ok_iff.1 ok
    have each := all.imp fun d x ok => (⟨h.value ok, ok⟩ : (∃ v : Value, d = v.document) ∧ _)
    obtain ⟨values, rfl⟩ := Value.exists_items ((List.forall₂_and_left _ _).1 each).1
    exact ⟨.list values, by rw [Value.document, Value.itemDocuments_eq_map]⟩
  agrees {v w} rearranged := by
    induction rearranged with
    | refl => exact fun _ => Iff.rfl
    | trans _ _ ih ih' => exact ih.trans ih'
    | members => exact .of_none nofun nofun
    | inItem before after inner => exact (h.agrees inner).listOf before after
    | inMember => exact .of_none nofun nofun

end Decoder

/-! ## Texts -/

namespace Decoder

variable {α : Type}

/-- A regular decoder reads from a text what it reads from the value that the text spells. -/
theorem Regular.ofBytes_eq_ok_iff {read : Decoder α} (h : read.Regular) {text : Bytes} {x : α} :
    Decoder.ofBytes read text = .ok x ↔
      ∃ v : Value, v.Spelled text ∧ v.nesting ≤ Document.depthLimit ∧ read v.document = .ok x := by
  cases parse : Document.ofBytes text with | mk d more => ?_
  have ofBytes : Decoder.ofBytes read text =
      read d >>= fun x => if more then .error .trailingCharacters else .ok x := by
    rw [Decoder.ofBytes, parse]
    cases more <;> rfl
  rw [ofBytes, bind_eq_ok]
  constructor
  · rintro ⟨a, ok, h'⟩
    cases more with
    | true => cases h'
    | false =>
      cases h'
      obtain ⟨v, rfl⟩ := h.value ok
      obtain ⟨spelled, shallow⟩ := Value.spelled_iff.1 parse
      exact ⟨v, spelled, shallow, ok⟩
  · rintro ⟨v, spelled, shallow, ok⟩
    rw [Value.spelled_iff.2 ⟨spelled, shallow⟩] at parse
    cases parse
    exact ⟨x, ok, rfl⟩

/-- The same for the value that is known to be spelled. -/
theorem Regular.ofBytes_spelled {read : Decoder α} (h : read.Regular) {v : Value} {text : Bytes}
    (spelled : v.Spelled text) {x : α} : Decoder.ofBytes read text = .ok x ↔
      v.nesting ≤ Document.depthLimit ∧ read v.document = .ok x := by
  rw [h.ofBytes_eq_ok_iff]
  constructor
  · rintro ⟨w, spelled', found⟩
    obtain rfl := spelled.unique spelled'
    exact found
  · exact fun found => ⟨v, spelled, found⟩

end Decoder

end PatchTrial.Json
