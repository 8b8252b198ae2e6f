import PatchTrial.Proofs.Json.Records

/-!
Places in documents: where the value of a field stands in a record, and where an item stands in a
list that a field stores. A record reads the value in a place by the field, and takes one value
there for another if the field does.

What is proved:
  1. `Place.agrees`, `Place.reads`: the value of a field.
  2. `InList.agrees`, `InList.reads`: an item of a list that a field stores.
  3. `Record.not_faulty`: names that are unknown or repeated are not taken.
-/
namespace PatchTrial.Json

/-- Where the value of a field of a record may stand: in a member of its name, or among items in the
place of the field. -/
inductive Record.Place {σ : Type} (r : Record σ) (n : String) : (Value → Value) → Prop
  | member (before after : List (String × Value)) :
    r.Place n fun v => .object (before ++ (n, v) :: after)
  | item (before after : List Value) (h : r.names[before.length]? = some n) :
    r.Place n fun v => .list (before ++ v :: after)

/-- Where the item with an index stands in a list. -/
inductive ItemPlace : Nat → (Value → Value) → Prop
  | mk (before after : List Value) : ItemPlace before.length fun v => .list (before ++ v :: after)

/-- Where an item stands in the list that is the value of a field. -/
inductive Record.InList {σ : Type} (r : Record σ) (n : String) (i : Nat) : (Value → Value) → Prop
  | mk {outer inner : Value → Value} (h : r.Place n outer) (h' : ItemPlace i inner) :
    r.InList n i fun v => outer (inner v)

namespace Record

variable {σ : Type} {r : Record σ} {n : String} {C : Value → Value} {f : Field σ}

theorem field?_eq_of_place (regular : r.Regular) {i : Nat}
    (place : r.names[i]? = some n) : r.field? n = r.fields[i]? := by
  rw [names, List.getElem?_map, Option.map_eq_some_iff] at place
  obtain ⟨f, own, rfl⟩ := place
  rw [own, regular.field?_name (List.mem_of_getElem? own)]

theorem Place.agrees (regular : r.Regular) (place : r.Place n C) {v w : Value}
    (h : r.FieldAgrees n v w) : r.decode.Agrees (C v) (C w) := by
  cases place with
  | member before after => exact agrees_inMember h before after
  | item before after place =>
    refine regular.agrees_inItem (fun f own => h f ?_) after
    rw [field?_eq_of_place regular place, own]

/-- What a member stores can be stored last. -/
theorem Regular.exists_last (regular : r.Regular) (field : r.field? n = some f) {v : Value}
    {before after : List (String × Value)} {s : σ}
    (h : r.ofObject ((before ++ (n, v) :: after).map Value.memberDocument) .closed = .ok s) :
    ∃ s₀, f.read v.document s₀ = .ok s := by
  -- at the end nothing comes after the member that could store something else
  have last : (before ++ (n, v) :: after).Perm (before ++ after ++ [(n, v)]) := by
    rw [List.append_assoc]
    exact (List.perm_append_singleton _ after).symm.append_left before
  rw [regular.ofObject_perm last, ofObject_eq_ok_iff, List.foldlM_append, bind_eq_ok] at h
  obtain ⟨-, s₀, -, fold⟩ := h
  have step : r.step s₀ (n, v) = .ok s := by simpa using fold
  rw [Record.step, field] at step
  exact ⟨s₀, step⟩

theorem Place.reads (regular : r.Regular) (place : r.Place n C) (field : r.field? n = some f)
    {v : Value} {s : σ} (h : r.decode (C v).document = .ok s) :
    ∃ s₀, f.read v.document s₀ = .ok s := by
  cases place with
  | member before after =>
    rw [decode_object] at h
    exact regular.exists_last field h
  | item before after place =>
    rw [decode_list, regular.ofList_eq_ok_iff] at h
    obtain ⟨f', ms, ms', own, named⟩ := exists_named h.1
    rw [field?_eq_of_place regular place, own] at field
    cases field
    rw [named v] at h
    exact regular.exists_last (regular.field?_name (List.mem_of_getElem? own)) h.2

theorem Place.nesting_mono (place : r.Place n C) {v w : Value} (h : v.nesting ≤ w.nesting) :
    (C v).nesting ≤ (C w).nesting := by
  cases place with
  | member before after =>
    simp only [Value.nesting, Value.memberNesting_append, Value.memberNesting]
    omega
  | item before after =>
    simp only [Value.nesting, Value.itemNesting_append, Value.itemNesting]
    omega

end Record

/-! ## Lists that fields store -/

theorem ItemPlace.agrees {α : Type} {read : Decoder α} {i : Nat} {C : Value → Value}
    (place : ItemPlace i C) {v w : Value} (h : read.Agrees v w) :
    (Decoder.listOf read).Agrees (C v) (C w) := by
  cases place with
  | mk before after => exact h.listOf before after

theorem ItemPlace.reads {α : Type} {read : Decoder α} {i : Nat} {C : Value → Value}
    (place : ItemPlace i C) {v : Value} {xs : List α}
    (h : Decoder.listOf read (C v).document = .ok xs) :
    ∃ x, xs[i]? = some x ∧ read v.document = .ok x := by
  cases place with
  | mk before after =>
    rw [Decoder.listOf_list_eq_ok_iff] at h
    induction before generalizing xs with
    | nil =>
      obtain ⟨x, xs, ok, -, rfl⟩ := List.forall₂_cons_left_iff.1 h
      exact ⟨x, rfl, ok⟩
    | cons u before ih =>
      obtain ⟨_, xs, -, further, rfl⟩ := List.forall₂_cons_left_iff.1 h
      exact ih further

theorem ItemPlace.nesting_mono {i : Nat} {C : Value → Value} (place : ItemPlace i C) {v w : Value}
    (h : v.nesting ≤ w.nesting) : (C v).nesting ≤ (C w).nesting := by
  cases place with
  | mk before after =>
    simp only [Value.nesting, Value.itemNesting_append, Value.itemNesting]
    omega

namespace Record.InList

variable {σ α : Type} {r : Record σ} {n : String} {i : Nat} {C : Value → Value} {f : Field σ}
  {read : Decoder α} {set : List α → σ → σ}

theorem agrees (regular : r.Regular) (field : r.field? n = some f)
    (stores : f.Stores (Decoder.listOf read) set) (place : r.InList n i C) {v w : Value}
    (h : read.Agrees v w) : r.decode.Agrees (C v) (C w) := by
  cases place with
  | mk outer inner =>
    refine outer.agrees regular fun g field' => ?_
    rw [field] at field'
    cases field'
    exact stores.agrees (inner.agrees h)

theorem reads (regular : r.Regular) (field : r.field? n = some f)
    (stores : f.Stores (Decoder.listOf read) set) (place : r.InList n i C) {v : Value} {s : σ}
    (h : r.decode (C v).document = .ok s) :
    ∃ s₀ xs x, s = set xs s₀ ∧ xs[i]? = some x ∧ read v.document = .ok x := by
  cases place with
  | mk outer inner =>
    obtain ⟨s₀, ok⟩ := outer.reads regular field h
    obtain ⟨xs, list, rfl⟩ := stores.read_eq_ok_iff.1 ok
    obtain ⟨x, place, ok⟩ := inner.reads list
    exact ⟨s₀, xs, x, rfl, place, ok⟩

theorem nesting_mono (place : r.InList n i C) {v w : Value} (h : v.nesting ≤ w.nesting) :
    (C v).nesting ≤ (C w).nesting := by
  cases place with
  | mk outer inner => exact outer.nesting_mono (inner.nesting_mono h)

end Record.InList

/-! ## Names -/

/-- Members of which one has a name that is not known, or two have the same known name. -/
def Faulty (known : List String) (ms : List (String × Value)) : Prop :=
  ∃ n, (n ∈ ms.map Prod.fst ∧ n ∉ known) ∨ (n ∈ known ∧ 2 ≤ (ms.map Prod.fst).count n)

theorem Record.mem_names_iff {σ : Type} {r : Record σ} {n : String} :
    n ∈ r.names ↔ (r.field? n).isSome = true := by
  constructor
  · intro mem
    obtain ⟨f, own, rfl⟩ := List.mem_map.1 mem
    exact field?_isSome own
  · intro known
    obtain ⟨f, field⟩ := Option.isSome_iff_exists.1 known
    obtain ⟨own, rfl⟩ := of_field? field
    exact List.mem_map_of_mem own

theorem Record.not_faulty {σ : Type} {r : Record σ} (strict : r.lenient = false)
    {ms : List (String × Value)} {s : σ} (h : r.decode (Value.object ms).document = .ok s) :
    ¬ Faulty r.names ms := by
  rw [decode_object, ofObject_eq_ok_iff] at h
  obtain ⟨fits, -⟩ := h
  rintro ⟨n, ⟨mem, unknown⟩ | ⟨known, repeated⟩⟩
  · obtain lenient | known := fits.known n mem
    · rw [strict] at lenient
      cases lenient
    · exact unknown (mem_names_iff.2 known)
  · exact absurd (fits.count_le_one (mem_names_iff.1 known)) (Nat.not_le.2 repeated)

end PatchTrial.Json
