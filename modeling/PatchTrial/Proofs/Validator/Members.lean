import PatchTrial.Proofs.Json.Records
import PatchTrial.Validator.Description

/-!
The decoders of a validator are regular. A check is the odd one: its kind is looked for among all of
its members first, and then the fields of that kind are read from the others, those without a field
being passed over.

What is proved:
  1. `Check.decode_object_eq_ok_iff`: what a check takes from its members.
  2. `Check.regular`, `Requirement.regular`, `Spec.regular`: all are read from values, in whatever
     order members stand.
  3. `Check.agrees_added`: members that are not declared for a check change nothing.
  4. `Check.once`: members that are declared are not repeated.
-/
namespace PatchTrial.Validator

open Json

/-! ## Keys -/

theorem KeyRef.decode_eq_ok_iff {v : Value} {k : KeyRef} :
    KeyRef.decode v.document = .ok k ↔
      (∃ n, v = .number (.natural n) ∧ k = .group n) ∨ (∃ s, v = .text s ∧ k = .named s) := by
  rw [KeyRef.decode.eq_def, Document.check_document]
  constructor
  · intro h
    cases v with
    | number n =>
      cases n with
      | natural n =>
        cases h
        exact .inl ⟨n, rfl, rfl⟩
      | _ => cases h
    | text s =>
      cases h
      exact .inr ⟨s, rfl, rfl⟩
    | _ => cases h
  · rintro (⟨n, rfl, rfl⟩ | ⟨s, rfl, rfl⟩) <;> rfl

theorem KeyRef.regular : Decoder.Regular KeyRef.decode := by
  refine Decoder.regular_of_scalar fun {d k} ok => ?_
  obtain ⟨⟨⟩, check, h⟩ := bind_eq_ok.1 ok
  obtain ⟨v, rfl⟩ := Document.exists_value check
  obtain ⟨n, rfl, -⟩ | ⟨s, rfl, -⟩ := KeyRef.decode_eq_ok_iff.1 ok
  · exact ⟨_, rfl, rfl⟩
  · exact ⟨_, rfl, rfl⟩

/-! ## Kinds of checks -/

namespace CheckKind

theorem decode_eq_ok_iff {d : Document} {k : CheckKind} :
    CheckKind.decode d = .ok k ↔ d = .text k.name := by
  constructor
  · intro h
    unfold CheckKind.decode at h
    split at h
    · split at h
      · next found =>
        cases h
        have := List.find?_some found
        rw [beq_iff_eq] at this
        rw [this]
      · cases h
    · exact absurd h (Decoder.refuse_ne_ok _ _ _)
  · rintro rfl
    cases k <;> decide

theorem decode_document_eq_ok_iff {v : Value} {k : CheckKind} :
    CheckKind.decode v.document = .ok k ↔ v = .text k.name := by
  rw [decode_eq_ok_iff]
  exact ⟨fun same => Value.document_injective same, fun same => same ▸ rfl⟩

theorem name_injective {k k' : CheckKind} (h : k.name = k'.name) : k = k' := by
  cases k <;> cases k' <;> first | rfl | exact absurd h (by decide)

theorem keyField_stores :
    keyField.Stores KeyRef.decode fun key c => { c with key } := ⟨fun _ _ => rfl⟩

theorem groupField_stores :
    groupField.Stores (Decoder.natural "usize") fun group c => { c with group } :=
  ⟨fun _ _ => rfl⟩

theorem beforeField_stores :
    beforeField.Stores Decoder.string fun before c => { c with before } := ⟨fun _ _ => rfl⟩

theorem afterField_stores :
    afterField.Stores Decoder.string fun after c => { c with after } := ⟨fun _ _ => rfl⟩

def allFields : List (Record.Field CheckParts) := [keyField, groupField, beforeField, afterField]

theorem fields_sublist (k : CheckKind) : k.fields.Sublist allFields := by
  cases k <;> simp [fields, allFields]

theorem record_regular (k : CheckKind) : k.record.Regular where
  distinct := by cases k <;> decide
  independent := by
    have all : allFields.Pairwise Record.Field.Independent := by
      simp only [allFields, List.pairwise_cons, List.Pairwise.nil, List.forall_mem_cons,
        List.not_mem_nil, false_implies, implies_true, and_true]
      exact ⟨⟨keyField_stores.independent groupField_stores fun _ _ _ => rfl,
          keyField_stores.independent beforeField_stores fun _ _ _ => rfl,
          keyField_stores.independent afterField_stores fun _ _ _ => rfl⟩,
        ⟨groupField_stores.independent beforeField_stores fun _ _ _ => rfl,
          groupField_stores.independent afterField_stores fun _ _ _ => rfl⟩,
        beforeField_stores.independent afterField_stores fun _ _ _ => rfl⟩
    exact all.sublist k.fields_sublist
  stores f mem := by
    have mem := k.fields_sublist.subset mem
    simp only [allFields, List.mem_cons, List.not_mem_nil, or_false] at mem
    obtain rfl | rfl | rfl | rfl := mem
    · exact ⟨_, _, _, keyField_stores, KeyRef.regular⟩
    · exact ⟨_, _, _, groupField_stores, Decoder.natural_regular _⟩
    · exact ⟨_, _, _, beforeField_stores, Decoder.string_regular⟩
    · exact ⟨_, _, _, afterField_stores, Decoder.string_regular⟩

end CheckKind

/-! ## Checks -/

namespace Check

def kinds (ms : List (String × Value)) : List Value :=
  (ms.filter fun m => m.1 == kindKey).map Prod.snd

def others (ms : List (String × Value)) : List (String × Value) :=
  ms.filter fun m => m.1 != kindKey

theorem filter_isOtherMember (ms : List (String × Value)) :
    (ms.map Value.memberDocument).filter isOtherMember =
      (others ms).map Value.memberDocument := by
  rw [List.filter_map]
  rfl

theorem readKind_kind (v : Value) (rest : List (Document × Except Problem Document))
    (kind : Option CheckKind) :
    readKind (Value.memberDocument (kindKey, v) :: rest) kind =
      if kind.isSome then .error (.duplicateField kindKey)
      else CheckKind.decode v.document >>= fun k => readKind rest (some k) := by
  rw [Value.memberDocument, readKind.eq_def]
  cases kind <;> rfl

theorem readKind_other {m : String × Value} (h : m.1 ≠ kindKey)
    (rest : List (Document × Except Problem Document)) (kind : Option CheckKind) :
    readKind (Value.memberDocument m :: rest) kind = readKind rest kind := by
  show (if m.1 = kindKey then _ else m.2.document.check >>= fun _ => readKind rest kind) = _
  rw [if_neg h, Document.check_document]
  rfl

theorem kinds_cons_kind (v : Value) (ms : List (String × Value)) :
    kinds ((kindKey, v) :: ms) = v :: kinds ms := rfl

theorem kinds_cons_other {m : String × Value} (h : m.1 ≠ kindKey) (ms : List (String × Value)) :
    kinds (m :: ms) = kinds ms := by
  rw [kinds, List.filter_cons_of_neg (by simpa using h)]
  rfl

theorem kinds_append (ms ms' : List (String × Value)) :
    kinds (ms ++ ms') = kinds ms ++ kinds ms' := by
  rw [kinds, List.filter_append, List.map_append]
  rfl

theorem others_cons_kind (v : Value) (ms : List (String × Value)) :
    others ((kindKey, v) :: ms) = others ms := rfl

theorem others_cons_other {m : String × Value} (h : m.1 ≠ kindKey)
    (ms : List (String × Value)) : others (m :: ms) = m :: others ms :=
  List.filter_cons_of_pos (by simpa using h)

theorem others_append (ms ms' : List (String × Value)) :
    others (ms ++ ms') = others ms ++ others ms' :=
  List.filter_append ..

/-- The kind is read from the one member that tells it. -/
theorem readKind_eq_ok_iff {ms : List (String × Value)} {kind found : Option CheckKind} :
    readKind (ms.map Value.memberDocument) kind = .ok found ↔
      (kinds ms = [] ∧ found = kind) ∨
        kind = none ∧ ∃ k : CheckKind, kinds ms = [.text k.name] ∧ found = some k := by
  induction ms generalizing kind with
  | nil =>
    constructor
    · intro h
      cases h
      exact .inl ⟨rfl, rfl⟩
    · rintro (⟨-, rfl⟩ | ⟨-, k, h, -⟩)
      · rfl
      · cases h
  | cons m ms ih =>
    rw [List.map_cons]
    -- a second member that tells the kind is refused, whatever it says
    by_cases tells : m.1 = kindKey
    · obtain ⟨n, v⟩ := m
      obtain rfl : n = kindKey := tells
      rw [readKind_kind, kinds_cons_kind]
      cases kind with
      | some k => exact ⟨nofun, by rintro (⟨h, -⟩ | ⟨h, -⟩) <;> cases h⟩
      | none =>
        rw [Option.isSome_none, if_neg nofun, bind_eq_ok]
        simp only [ih, CheckKind.decode_document_eq_ok_iff]
        constructor
        · rintro ⟨k, rfl, ⟨none, rfl⟩ | ⟨h, -⟩⟩
          · exact .inr ⟨trivial, k, by rw [none], rfl⟩
          · cases h
        · rintro (⟨h, -⟩ | ⟨-, k, single, rfl⟩)
          · cases h
          · obtain ⟨rfl, none⟩ := List.cons_eq_cons.1 single
            exact ⟨k, rfl, .inl ⟨none, rfl⟩⟩
    · rw [readKind_other tells, kinds_cons_other tells]
      exact ih

/-- A check takes the kind from one member and the fields of that kind from the others. -/
theorem decode_object_eq_ok_iff {ms : List (String × Value)} {c : Check} :
    Check.decode (Value.object ms).document = .ok c ↔
      ∃ (k : CheckKind) (parts : CheckParts), kinds ms = [.text k.name] ∧
        k.record.ofObject ((others ms).map Value.memberDocument) .closed = .ok parts ∧
        c = k.toCheck parts := by
  rw [Value.document, Value.memberDocuments_eq_map, Check.decode, bind_eq_ok]
  constructor
  · rintro ⟨kind, read, h⟩
    obtain ⟨-, rfl⟩ | ⟨-, k, single, rfl⟩ := readKind_eq_ok_iff.1 read
    · cases h
    · obtain ⟨⟨⟩, -, h⟩ := bind_eq_ok.1 h
      obtain ⟨parts, fields, h⟩ := bind_eq_ok.1 h
      rw [filter_isOtherMember] at fields
      exact ⟨k, parts, single, fields, (Except.ok.inj h).symm⟩
  · rintro ⟨k, parts, single, fields, rfl⟩
    refine ⟨some k, readKind_eq_ok_iff.2 (.inr ⟨rfl, k, single, rfl⟩), ?_⟩
    refine bind_eq_ok.2 ⟨(), rfl, bind_eq_ok.2 ⟨parts, ?_, rfl⟩⟩
    rw [filter_isOtherMember]
    exact fields

theorem decode_list_eq_ok_iff {first : Value} {items : List Value} {c : Check} :
    Check.decode (Value.list (first :: items)).document = .ok c ↔
      ∃ (k : CheckKind) (parts : CheckParts), first = .text k.name ∧
        k.record.ofWholeList (items.map Value.document) = .ok parts ∧ c = k.toCheck parts := by
  have checked := Document.checkItems_documents items
  rw [Value.document, Value.itemDocuments, Check.decode, bind_eq_ok]
  rw [Value.itemDocuments_eq_map] at checked ⊢
  constructor
  · rintro ⟨k, kind, h⟩
    obtain ⟨⟨⟩, -, h⟩ := bind_eq_ok.1 h
    obtain ⟨⟨⟩, -, h⟩ := bind_eq_ok.1 h
    obtain ⟨parts, fields, h⟩ := bind_eq_ok.1 h
    exact ⟨k, parts, CheckKind.decode_document_eq_ok_iff.1 kind, fields, (Except.ok.inj h).symm⟩
  · rintro ⟨k, parts, kind, fields, rfl⟩
    exact ⟨k, CheckKind.decode_document_eq_ok_iff.2 kind, bind_eq_ok.2 ⟨(), checked,
      bind_eq_ok.2 ⟨(), rfl, bind_eq_ok.2 ⟨parts, fields, rfl⟩⟩⟩⟩

theorem agrees_of_parts {ms ms' : List (String × Value)}
    (h : ∀ k : CheckKind, kinds ms = [.text k.name] ↔ kinds ms' = [.text k.name])
    (h' : ∀ k : CheckKind, kinds ms = [.text k.name] → ∀ parts,
      k.record.ofObject ((others ms).map Value.memberDocument) .closed = .ok parts ↔
        k.record.ofObject ((others ms').map Value.memberDocument) .closed = .ok parts) :
    Check.decode.Agrees (.object ms) (.object ms') := by
  intro c
  rw [decode_object_eq_ok_iff, decode_object_eq_ok_iff]
  refine exists₂_congr fun k parts => ?_
  rw [← h k]
  exact and_congr_right fun single => and_congr_left fun _ => h' k single parts

theorem agrees_perm {ms ms' : List (String × Value)} (h : ms.Perm ms') :
    Check.decode.Agrees (.object ms) (.object ms') := by
  have kinds : (kinds ms).Perm (kinds ms') := (h.filter _).map _
  refine agrees_of_parts (fun k => ⟨fun single => ?_, fun single => ?_⟩)
    fun k _ => k.record_regular.ofObject_perm (h.filter _)
  · rw [single] at kinds
    exact List.perm_singleton.1 kinds.symm
  · rw [single] at kinds
    exact List.perm_singleton.1 kinds

theorem text_of_rearranged {v w : Value} (h : v.Rearranged w) (s : String) :
    v = .text s ↔ w = .text s := by
  constructor
  · rintro rfl
    exact (h.eq_of_scalar rfl).symm
  · rintro rfl
    exact (h.symm.eq_of_scalar rfl).symm

theorem agrees_inMember {v w : Value} (h : v.Rearranged w) (before after : List (String × Value))
    (name : String) : Check.decode.Agrees (.object (before ++ (name, v) :: after))
      (.object (before ++ (name, w) :: after)) := by
  -- the member either tells the kind, as a text that has no other arrangement, or is a field
  by_cases tells : name = kindKey
  · subst tells
    refine agrees_of_parts (fun k => ?_) fun k _ parts => ?_
    · simp only [kinds_append, kinds_cons_kind, List.append_eq_singleton_iff, List.cons.injEq,
        reduceCtorEq, and_false, or_false, text_of_rearranged h]
    · rw [others_append, others_append, others_cons_kind, others_cons_kind]
  · refine agrees_of_parts (fun k => ?_) fun k _ parts => ?_
    · rw [kinds_append, kinds_append, kinds_cons_other tells, kinds_cons_other tells]
    · rw [others_append, others_append, others_cons_other tells, others_cons_other tells]
      exact Record.ofObject_member (fun f field =>
        k.record_regular.stores_agrees (Record.of_field? field).1 h) _ _ parts

theorem agrees_inItem {v w : Value} (h : v.Rearranged w) (before after : List Value) :
    Check.decode.Agrees (.list (before ++ v :: after)) (.list (before ++ w :: after)) := by
  intro c
  cases before with
  | nil =>
    rw [List.nil_append, List.nil_append, decode_list_eq_ok_iff, decode_list_eq_ok_iff]
    exact exists₂_congr fun k parts => and_congr_left fun _ => text_of_rearranged h _
  | cons first before =>
    rw [List.cons_append, List.cons_append, decode_list_eq_ok_iff, decode_list_eq_ok_iff]
    refine exists₂_congr fun k parts => and_congr_right fun _ => and_congr_left fun _ => ?_
    rw [k.record_regular.ofWholeList_eq_ok_iff, k.record_regular.ofWholeList_eq_ok_iff]
    exact k.record_regular.named_agrees
      (fun f place => k.record_regular.stores_agrees (List.mem_of_getElem? place) h) after parts

theorem exists_members {members : List (Document × Except Problem Document)}
    {kind found : Option CheckKind} (h : readKind members kind = .ok found) :
    ∃ ms : List (String × Value), members = ms.map Value.memberDocument := by
  induction members generalizing kind with
  | nil => exact ⟨[], rfl⟩
  | cons m members ih =>
    obtain ⟨key, value⟩ := m
    obtain ⟨name, named, step⟩ := bind_eq_ok.1 h
    obtain rfl := Document.key_eq_ok named
    split at step
    · split at step
      · cases step
      obtain ⟨d, given, step'⟩ := bind_eq_ok.1 step
      obtain ⟨k, tells, further⟩ := bind_eq_ok.1 step'
      subst given
      obtain rfl := CheckKind.decode_eq_ok_iff.1 tells
      obtain ⟨ms, rfl⟩ := ih further
      exact ⟨(name, .text k.name) :: ms, rfl⟩
    · obtain ⟨d, given, step'⟩ := bind_eq_ok.1 step
      obtain ⟨⟨⟩, check, further⟩ := bind_eq_ok.1 step'
      subst given
      obtain ⟨v, rfl⟩ := Document.exists_value check
      obtain ⟨ms, rfl⟩ := ih further
      exact ⟨(name, v) :: ms, rfl⟩

/-- A check is read from values, in whatever order members of objects stand. -/
theorem regular : Decoder.Regular Check.decode where
  value {d c} ok := by
    unfold Check.decode at ok
    split at ok
    · obtain ⟨kind, read, h⟩ := bind_eq_ok.1 ok
      obtain ⟨ms, rfl⟩ := exists_members read
      obtain ⟨⟨⟩, ends, -⟩ := bind_eq_ok.1 h
      obtain rfl := Document.checkObject_eq_ok ends
      exact ⟨.object ms, by rw [Value.document, Value.memberDocuments_eq_map]⟩
    · obtain ⟨⟨⟩, -, h⟩ := bind_eq_ok.1 ok
      cases h
    · obtain ⟨k, tells, h⟩ := bind_eq_ok.1 ok
      obtain ⟨⟨⟩, check, h⟩ := bind_eq_ok.1 h
      obtain ⟨⟨⟩, ends, -⟩ := bind_eq_ok.1 h
      obtain rfl := CheckKind.decode_eq_ok_iff.1 tells
      obtain ⟨values, rfl⟩ := Document.exists_itemValues check
      obtain rfl := Document.checkList_eq_ok ends
      refine ⟨.list (.text k.name :: values), ?_⟩
      rw [Value.document, Value.itemDocuments_eq_map]
      rfl
    · exact absurd ok (Decoder.refuse_ne_ok _ _ _)
  agrees {v w} rearranged := by
    induction rearranged with
    | refl => exact fun _ => Iff.rfl
    | trans _ _ ih ih' => exact ih.trans ih'
    | members perm => exact agrees_perm perm
    | inItem before after inner => exact agrees_inItem inner before after
    | inMember before after name inner => exact agrees_inMember inner before after name

/-- Whether a name is declared for a check: it tells the kind, or it is a field of the kind. -/
def Declares (ms : List (String × Value)) (n : String) : Prop :=
  n = kindKey ∨ ∃ k : CheckKind, (kindKey, .text k.name) ∈ ms ∧
    n ∈ k.fields.map Record.Field.name

theorem mem_kinds {ms : List (String × Value)} {v : Value} :
    v ∈ kinds ms ↔ (kindKey, v) ∈ ms := by
  simp [kinds]

/-- A member that is not declared for a check changes nothing. -/
theorem agrees_added {before after : List (String × Value)} {n : String}
    (h : ¬ Declares (before ++ after) n) (v : Value) :
    Check.decode.Agrees (.object (before ++ after)) (.object (before ++ (n, v) :: after)) := by
  have other : n ≠ kindKey := fun tells => h (.inl tells)
  refine agrees_of_parts (fun k => ?_) fun k single parts => ?_
  · rw [kinds_append, kinds_append, kinds_cons_other other]
  · have mem : (kindKey, .text k.name) ∈ before ++ after :=
      mem_kinds.1 (single ▸ List.mem_singleton_self _)
    have unknown : k.record.field? n = none := by
      by_contra known
      obtain ⟨f, field⟩ := Option.ne_none_iff_exists'.1 known
      obtain ⟨own, rfl⟩ := Record.of_field? field
      exact h (.inr ⟨k, mem, List.mem_map_of_mem own⟩)
    rw [others_append, others_append, others_cons_other other]
    exact (Record.ofObject_added rfl unknown v _ _ parts).symm

theorem count_kindKey (ms : List (String × Value)) :
    (ms.map Prod.fst).count kindKey = (kinds ms).length := by
  rw [kinds, List.length_map, ← List.countP_eq_length_filter, List.count_eq_countP,
    List.countP_map]
  rfl

theorem count_others {n : String} (h : n ≠ kindKey) (ms : List (String × Value)) :
    ((others ms).map Prod.fst).count n = (ms.map Prod.fst).count n := by
  rw [List.count_eq_countP, List.countP_map, List.count_eq_countP, List.countP_map, others,
    List.countP_filter]
  refine List.countP_congr fun m _ => ?_
  simp only [Function.comp, Bool.and_eq_true, beq_iff_eq, bne_iff_ne]
  exact and_iff_left_of_imp fun same => same ▸ h

/-- No member that is declared for a check is repeated. -/
theorem once {ms : List (String × Value)} {c : Check}
    (h : Check.decode (Value.object ms).document = .ok c) {n : String} (declared : Declares ms n) :
    (ms.map Prod.fst).count n ≤ 1 := by
  obtain ⟨k, parts, single, fields, -⟩ := decode_object_eq_ok_iff.1 h
  by_cases tells : n = kindKey
  · rw [tells, count_kindKey, single, List.length_singleton]
  · obtain tells' | ⟨k', mem, own⟩ := declared
    · exact absurd tells' tells
    rw [← mem_kinds, single, List.mem_singleton, Value.text.injEq] at mem
    obtain rfl := CheckKind.name_injective mem
    obtain ⟨f, mem, rfl⟩ := List.mem_map.1 own
    rw [← count_others tells]
    exact (Record.ofObject_eq_ok_iff.1 fields).1.count_le_one (Record.field?_isSome mem)

end Check

/-! ## Requirements, shapes and validators -/

theorem variant_eq_ok_iff {α : Type} {names : List String} {read : String → Decoder α}
    {d : Document} {x : α} : Decoder.variant names read d = .ok x ↔
      ∃ name inner, d = .object [(.text name, .ok inner)] .closed ∧ name ∈ names ∧
        read name inner = .ok x := by
  constructor
  · intro h
    unfold Decoder.variant at h
    split at h
    · cases h
    · cases h
    · cases h
    · next key value rest ending =>
      dsimp only at h
      -- nothing but an object with this one member gets to its end
      split at h
      · split at h
        · next name known =>
          obtain ⟨_, same, h⟩ := bind_eq_ok.1 h
          cases same
          obtain ⟨inner, given, h⟩ := bind_eq_ok.1 h
          obtain ⟨result, ok, h⟩ := bind_eq_ok.1 h
          cases rest with
          | cons => cases h
          | nil =>
            obtain ⟨⟨⟩, ends, h⟩ := bind_eq_ok.1 h
            obtain rfl : ending = .closed := by cases ending <;> cases ends; rfl
            cases h
            exact ⟨name, inner, by rw [given], known, ok⟩
        · cases h
      · obtain ⟨_, same, -⟩ := bind_eq_ok.1 h
        exact absurd same (Decoder.refuse_ne_ok _ _ _)
    · split at h <;> cases h
    · cases h
    · cases h
    · cases h
  · rintro ⟨name, inner, rfl, known, ok⟩
    rw [Decoder.variant.eq_def]
    dsimp only
    rw [if_pos known]
    exact bind_eq_ok.2 ⟨name, rfl, bind_eq_ok.2 ⟨inner, rfl, bind_eq_ok.2 ⟨x, ok, rfl⟩⟩⟩

namespace Requirement

/-- The requirement of a form and a key. -/
def named (name key : String) : Requirement := if name = "changed" then .changed key else .seen key

theorem decode_eq_ok_iff {d : Document} {q : Requirement} :
    Requirement.decode d = .ok q ↔
      ∃ name key, d = .object [(.text name, .ok (.text key))] .closed ∧
        name ∈ ["changed", "seen"] ∧ q = named name key := by
  rw [Requirement.decode, variant_eq_ok_iff]
  constructor
  · rintro ⟨name, inner, rfl, known, ok⟩
    obtain ⟨key, text, h⟩ := bind_eq_ok.1 ok
    obtain rfl := Decoder.string_eq_ok_iff.1 text
    exact ⟨name, key, rfl, known, (Except.ok.inj h).symm⟩
  · rintro ⟨name, key, rfl, known, rfl⟩
    exact ⟨name, .text key, rfl, known, rfl⟩

theorem decode_document_eq_ok_iff {v : Value} {q : Requirement} :
    Requirement.decode v.document = .ok q ↔
      ∃ name key, v = .object [(name, .text key)] ∧ name ∈ ["changed", "seen"] ∧
        q = named name key := by
  rw [decode_eq_ok_iff]
  refine exists₂_congr fun name key => and_congr_left fun _ => ?_
  exact ⟨fun same => Value.document_injective (w := .object [(name, .text key)]) same,
    fun same => same ▸ rfl⟩

/-- A requirement is read from values, in whatever order members of objects stand. -/
theorem regular : Decoder.Regular Requirement.decode where
  value {d q} ok := by
    obtain ⟨name, key, rfl, -⟩ := decode_eq_ok_iff.1 ok
    exact ⟨.object [(name, .text key)], rfl⟩
  agrees {v w} rearranged q := by
    have follow {v w : Value} (rearranged : v.Rearranged w)
        (ok : Requirement.decode v.document = .ok q) : Requirement.decode w.document = .ok q := by
      obtain ⟨name, key, single, known⟩ := decode_document_eq_ok_iff.1 ok
      rwa [← rearranged.eq_of_single rfl single]
    exact ⟨follow rearranged, follow rearranged.symm⟩

end Requirement

theorem ShapeSpec.regular : ShapeSpec.record.Regular where
  distinct := by decide
  independent := by
    simp only [ShapeSpec.record, List.pairwise_cons, List.Pairwise.nil, List.forall_mem_cons,
      List.not_mem_nil, false_implies, implies_true, and_true]
    refine ⟨⟨?_, ?_⟩, ?_⟩ <;>
      exact Record.Field.Stores.independent ⟨fun _ _ => rfl⟩ ⟨fun _ _ => rfl⟩ fun _ _ _ => rfl
  stores := by
    simp only [ShapeSpec.record, List.forall_mem_cons, List.not_mem_nil, false_implies,
      implies_true, and_true]
    exact ⟨⟨_, _, _, ⟨fun _ _ => rfl⟩, Decoder.string_regular⟩,
      ⟨_, _, _, ⟨fun _ _ => rfl⟩, Decoder.string_regular.optional⟩,
      ⟨_, _, _, ⟨fun _ _ => rfl⟩, Check.regular.listOf⟩⟩

/-- A validator is made up of a preset, shapes and requirements, each by its name. -/
theorem Spec.regular : Spec.record.Regular where
  distinct := by decide
  independent := by
    simp only [Spec.record, List.pairwise_cons, List.Pairwise.nil, List.forall_mem_cons,
      List.not_mem_nil, false_implies, implies_true, and_true]
    refine ⟨⟨?_, ?_⟩, ?_⟩ <;>
      exact Record.Field.Stores.independent ⟨fun _ _ => rfl⟩ ⟨fun _ _ => rfl⟩ fun _ _ _ => rfl
  stores := by
    simp only [Spec.record, List.forall_mem_cons, List.not_mem_nil, false_implies,
      implies_true, and_true]
    exact ⟨⟨_, _, _, ⟨fun _ _ => rfl⟩, Decoder.string_regular.optional⟩,
      ⟨_, _, _, ⟨fun _ _ => rfl⟩, (ShapeSpec.regular.decode rfl).listOf⟩,
      ⟨_, _, _, ⟨fun _ _ => rfl⟩, Requirement.regular.listOf⟩⟩

end PatchTrial.Validator
