import Mathlib.Data.List.Nodup
import Mathlib.Data.List.Pairwise
import PatchTrial.Proofs.Json.Decoders

/-!
Records. What a record takes from an object is a set of names together with a fold over the members,
and where its fields can be stored in any order the fold does not depend on the order of the
members. A list of items stands for the object that names them in the order of the fields.

What is proved:
  1. `ofObject_eq_ok_iff`: what a record takes.
  2. `Regular.ofObject_perm`, `ofObject_member`, `ofObject_added`: other members, the same record.
  3. `Regular.ofList_eq_ok_iff`: a list is read as the object that it stands for.
  4. `Regular.decode`: a record is a regular decoder.
-/
namespace PatchTrial.Json

namespace Record

variable {σ : Type}

/-- A field takes one value for the same as another. -/
def Field.Agrees (f : Field σ) (v w : Value) : Prop :=
  ∀ s x, f.read v.document s = .ok x ↔ f.read w.document s = .ok x

/-- A field that stores what a decoder reads. -/
structure Field.Stores {α : Type} (f : Field σ) (read : Decoder α) (set : α → σ → σ) : Prop where
  read_eq : ∀ d s, f.read d s = read d >>= fun a => .ok (set a s)

/-- Two fields that can be read in either order. -/
def Field.Independent (f g : Field σ) : Prop :=
  ∀ d d' s x, (f.read d s >>= g.read d') = .ok x ↔ (g.read d' s >>= f.read d) = .ok x

theorem Field.Stores.read_eq_ok_iff {α : Type} {f : Field σ} {read : Decoder α} {set : α → σ → σ}
    (h : f.Stores read set) {d : Document} {s x : σ} :
    f.read d s = .ok x ↔ ∃ a, read d = .ok a ∧ x = set a s := by
  rw [h.read_eq, bind_eq_ok]
  exact exists_congr fun a => and_congr_right fun _ => ⟨fun h => (Except.ok.inj h).symm,
    fun h => congrArg _ h.symm⟩

theorem Field.Stores.agrees {α : Type} {f : Field σ} {read : Decoder α} {set : α → σ → σ}
    (h : f.Stores read set) {v w : Value} (agrees : read.Agrees v w) : f.Agrees v w := by
  intro s x
  rw [h.read_eq_ok_iff, h.read_eq_ok_iff]
  exact exists_congr fun a => and_congr_left fun _ => agrees a

theorem Field.Stores.independent {α β : Type} {f g : Field σ} {read : Decoder α}
    {read' : Decoder β} {set : α → σ → σ} {set' : β → σ → σ} (hf : f.Stores read set)
    (hg : g.Stores read' set') (h : ∀ a b s, set' b (set a s) = set a (set' b s)) :
    f.Independent g := by
  intro d d' s x
  simp only [bind_eq_ok, hf.read_eq_ok_iff, hg.read_eq_ok_iff]
  constructor
  · rintro ⟨_, ⟨a, ok, rfl⟩, b, ok', rfl⟩
    exact ⟨_, ⟨b, ok', rfl⟩, a, ok, h a b s⟩
  · rintro ⟨_, ⟨b, ok', rfl⟩, a, ok, rfl⟩
    exact ⟨_, ⟨a, ok, rfl⟩, b, ok', (h a b s).symm⟩

def names (r : Record σ) : List String := r.fields.map Field.name

/-- A record of which the fields have names of their own, can be read in any order and store what
regular decoders read. -/
structure Regular (r : Record σ) : Prop where
  distinct : r.names.Nodup
  independent : r.fields.Pairwise Field.Independent
  stores : ∀ f ∈ r.fields, ∃ (α : Type) (read : Decoder α) (set : α → σ → σ),
    f.Stores read set ∧ read.Regular

/-- What a member adds to a record. -/
def step (r : Record σ) (s : σ) (m : String × Value) : Except Problem σ :=
  match r.field? m.1 with
  | none => .ok s
  | some f => f.read m.2.document s

def declared (r : Record σ) (names : List String) : List String :=
  names.filter fun n => (r.field? n).isSome

/-- The names of members that a record takes together. -/
structure Fits (r : Record σ) (names : List String) : Prop where
  known : ∀ n ∈ names, r.lenient = true ∨ (r.field? n).isSome = true
  once : (r.declared names).Nodup
  complete : ∀ f ∈ r.fields, f.required = true → f.name ∈ names

theorem declared_cons_known {r : Record σ} {f : Field σ} {n : String} (h : r.field? n = some f)
    (names : List String) : r.declared (n :: names) = n :: r.declared names :=
  List.filter_cons_of_pos (by rw [h]; rfl)

theorem declared_cons_unknown {r : Record σ} {n : String} (h : r.field? n = none)
    (names : List String) : r.declared (n :: names) = r.declared names :=
  List.filter_cons_of_neg (by rw [h]; nofun)

theorem readMembers_unknown {r : Record σ} {m : String × Value} (h : r.field? m.1 = none)
    (rest : List (Document × Except Problem Document)) (seen : List String) (s : σ) :
    r.readMembers (Value.memberDocument m :: rest) seen s =
      if r.lenient then r.readMembers rest seen s
      else .error (.unknownField m.1 (r.fields.map Field.name)) := by
  show (match r.field? m.1 with | none => _ | some f => _) = _
  rw [h]
  rfl

theorem readMembers_known {r : Record σ} {m : String × Value} {f : Field σ}
    (h : r.field? m.1 = some f) (rest : List (Document × Except Problem Document))
    (seen : List String) (s : σ) :
    r.readMembers (Value.memberDocument m :: rest) seen s =
      if m.1 ∈ seen then .error (.duplicateField m.1)
      else f.read m.2.document s >>= fun s => r.readMembers rest (m.1 :: seen) s := by
  show (match r.field? m.1 with | none => _ | some f => _) = _
  rw [h]
  dsimp only
  split <;> rfl

/-- The members of an object are read by their fields, if they are known and no two are for the
same field. -/
theorem readMembers_eq_ok_iff {r : Record σ} {ms : List (String × Value)}
    {seen seen' : List String} {s s' : σ} :
    r.readMembers (ms.map Value.memberDocument) seen s = .ok (s', seen') ↔
      (∀ n ∈ ms.map Prod.fst, r.lenient = true ∨ (r.field? n).isSome = true) ∧
      (r.declared (ms.map Prod.fst)).Nodup ∧ (∀ n ∈ r.declared (ms.map Prod.fst), n ∉ seen) ∧
      ms.foldlM r.step s = .ok s' ∧ seen' = (r.declared (ms.map Prod.fst)).reverse ++ seen := by
  -- every member that is read is seen from then on, so the induction is for any names seen before
  induction ms generalizing seen s with
  | nil =>
    constructor
    · intro h
      cases h
      exact ⟨nofun, .nil, nofun, rfl, rfl⟩
    · rintro ⟨-, -, -, fold, rfl⟩
      cases fold
      rfl
  | cons m ms ih =>
    rw [List.map_cons, List.map_cons, List.foldlM_cons, List.forall_mem_cons]
    cases field : r.field? m.1 with
    | none =>
      have step : r.step s m = pure s := by rw [Record.step, field]; rfl
      rw [readMembers_unknown field, declared_cons_unknown field, step, pure_bind]
      by_cases lenient : r.lenient = true
      · rw [if_pos lenient, ih]
        simp only [lenient, true_or, true_and]
      · simp only [lenient, if_false, Option.isSome_none, or_self, false_and, reduceCtorEq]
    | some f =>
      have step : r.step s m = f.read m.2.document s := by rw [Record.step, field]
      rw [readMembers_known field, declared_cons_known field, step, List.nodup_cons,
        List.forall_mem_cons]
      by_cases repeated : m.1 ∈ seen
      · simp only [repeated, if_true, not_true, false_and, and_false, reduceCtorEq]
      · rw [if_neg repeated, bind_eq_ok, bind_eq_ok]
        simp only [ih, List.mem_cons, not_or, List.reverse_cons, List.append_assoc,
          List.singleton_append]
        constructor
        · rintro ⟨s₁, read, known, once, fresh, fold, same⟩
          exact ⟨⟨.inr rfl, known⟩, ⟨fun mem => (fresh _ mem).1 rfl, once⟩,
            ⟨repeated, fun n mem => (fresh n mem).2⟩, ⟨s₁, read, fold⟩, same⟩
        · rintro ⟨⟨-, known⟩, ⟨new, once⟩, ⟨-, fresh⟩, ⟨s₁, read, fold⟩, same⟩
          exact ⟨s₁, read, known, once,
            fun n mem => ⟨fun same => new (same ▸ mem), fresh n mem⟩, fold, same⟩

theorem field?_isSome {r : Record σ} {f : Field σ} (h : f ∈ r.fields) :
    (r.field? f.name).isSome = true :=
  List.find?_isSome.2 ⟨f, h, beq_self_eq_true _⟩

theorem of_field? {r : Record σ} {f : Field σ} {n : String} (h : r.field? n = some f) :
    f ∈ r.fields ∧ f.name = n :=
  ⟨List.mem_of_find?_eq_some h, by simpa using List.find?_some h⟩

theorem mem_declared {r : Record σ} {f : Field σ} (h : f ∈ r.fields) {names : List String} :
    f.name ∈ r.declared names ↔ f.name ∈ names := by
  rw [declared, List.mem_filter]
  exact and_iff_left (field?_isSome h)

theorem missing?_eq_none_iff {r : Record σ} {names : List String} :
    r.missing? (r.declared names).reverse = none ↔
      ∀ f ∈ r.fields, f.required = true → f.name ∈ names := by
  rw [missing?, List.find?_eq_none]
  refine forall₂_congr fun f mem => ?_
  simp only [Bool.and_eq_true, decide_eq_true_eq, not_and, not_not, List.mem_reverse,
    mem_declared mem]

/-- What a record takes: members by their names, and what these store, one after the other. -/
theorem ofObject_eq_ok_iff {r : Record σ} {ms : List (String × Value)} {s : σ} :
    r.ofObject (ms.map Value.memberDocument) .closed = .ok s ↔
      r.Fits (ms.map Prod.fst) ∧ ms.foldlM r.step r.start = .ok s := by
  rw [ofObject, bind_eq_ok]
  constructor
  · rintro ⟨⟨s', seen⟩, read, h⟩
    obtain ⟨known, once, -, fold, rfl⟩ := readMembers_eq_ok_iff.1 read
    rw [List.append_nil] at h
    cases missing : r.missing? (r.declared (ms.map Prod.fst)).reverse with
    | some f =>
      simp only [missing] at h
      cases h
    | none =>
      simp only [missing] at h
      cases h
      exact ⟨⟨known, once, missing?_eq_none_iff.1 missing⟩, fold⟩
  · rintro ⟨⟨known, once, complete⟩, fold⟩
    refine ⟨_, readMembers_eq_ok_iff.2 ⟨known, once, nofun, fold, rfl⟩, ?_⟩
    simp only [List.append_nil, missing?_eq_none_iff.2 complete]
    rfl

/-! ## The order of members -/

theorem Fits.perm {r : Record σ} {names names' : List String} (fits : r.Fits names)
    (h : names.Perm names') : r.Fits names' where
  known n mem := fits.known n (h.mem_iff.2 mem)
  once := (h.filter _).nodup_iff.1 fits.once
  complete f mem required := h.mem_iff.1 (fits.complete f mem required)

theorem Fits.count_le_one {r : Record σ} {names : List String} (fits : r.Fits names) {n : String}
    (h : (r.field? n).isSome = true) : names.count n ≤ 1 := by
  have once := List.nodup_iff_count_le_one.1 fits.once n
  rwa [declared, List.count_filter (p := fun n => (r.field? n).isSome) h] at once

theorem Regular.independent_of_ne {r : Record σ} (regular : r.Regular) {f g : Field σ}
    (hf : f ∈ r.fields) (hg : g ∈ r.fields) (h : f.name ≠ g.name) : f.Independent g := by
  have : Std.Symm (Field.Independent (σ := σ)) :=
    ⟨fun f g independent d d' s x => (independent d' d s x).symm⟩
  exact regular.independent.forall hf hg fun same => h (same ▸ rfl)

/-- Members for different fields can be read in either order. -/
theorem Regular.step_swap {r : Record σ} (regular : r.Regular) {m m' : String × Value}
    (once : (r.declared [m.1, m'.1]).Nodup) (s x : σ) :
    (r.step s m >>= fun s => r.step s m') = .ok x ↔
      (r.step s m' >>= fun s => r.step s m) = .ok x := by
  unfold step
  cases field : r.field? m.1 with
  | none => simp only [bind_eq_ok, Except.ok.injEq, exists_eq_left', exists_eq_right]
  | some f =>
    cases field' : r.field? m'.1 with
    | none => simp only [bind_eq_ok, Except.ok.injEq, exists_eq_left', exists_eq_right]
    | some g =>
      obtain ⟨hf, name⟩ := of_field? field
      obtain ⟨hg, name'⟩ := of_field? field'
      rw [declared_cons_known field, declared_cons_known field'] at once
      have different : f.name ≠ g.name := fun same =>
        (List.nodup_cons.1 once).1 (List.mem_cons.2 (.inl (name ▸ name' ▸ same)))
      exact regular.independent_of_ne hf hg different _ _ s x

theorem Regular.foldlM_perm {r : Record σ} (regular : r.Regular) {ms ms' : List (String × Value)}
    (h : ms.Perm ms') (once : (r.declared (ms.map Prod.fst)).Nodup) (s x : σ) :
    ms.foldlM r.step s = .ok x ↔ ms'.foldlM r.step s = .ok x := by
  induction h generalizing s with
  | nil => exact Iff.rfl
  | cons m perm ih =>
    rw [List.foldlM_cons, List.foldlM_cons, bind_eq_ok, bind_eq_ok]
    have once := once.sublist ((List.sublist_cons_self _ _).filter _)
    exact exists_congr fun s => and_congr_right fun _ => ih once s
  | swap m m' ms =>
    -- of two members in front, at most one is for a field, or they are for different fields
    have first : [m'.1, m.1].Sublist (m'.1 :: m.1 :: ms.map Prod.fst) :=
      ((List.nil_sublist _).cons_cons _).cons_cons _
    have swap := regular.step_swap (once.sublist (first.filter _)) s
    simp only [List.foldlM_cons, ← bind_assoc]
    rw [bind_eq_ok, bind_eq_ok]
    exact exists_congr fun s => and_congr_left fun _ => swap s
  | trans perm _ ih ih' =>
    exact (ih once s).trans (ih' (((perm.map _).filter _).nodup_iff.1 once) s)

theorem Regular.ofObject_perm {r : Record σ} (regular : r.Regular)
    {ms ms' : List (String × Value)} (h : ms.Perm ms') (s : σ) :
    r.ofObject (ms.map Value.memberDocument) .closed = .ok s ↔
      r.ofObject (ms'.map Value.memberDocument) .closed = .ok s := by
  rw [ofObject_eq_ok_iff, ofObject_eq_ok_iff]
  constructor
  · rintro ⟨fits, fold⟩
    exact ⟨fits.perm (h.map _), (regular.foldlM_perm h fits.once _ _).1 fold⟩
  · rintro ⟨fits, fold⟩
    exact ⟨fits.perm (h.symm.map _), (regular.foldlM_perm h.symm fits.once _ _).1 fold⟩

/-! ## The values of members -/

/-- A record takes one value of a member for the same as another. -/
def FieldAgrees (r : Record σ) (n : String) (v w : Value) : Prop :=
  ∀ f, r.field? n = some f → f.Agrees v w

theorem ofObject_member {r : Record σ} {n : String} {v w : Value} (h : r.FieldAgrees n v w)
    (before after : List (String × Value)) (s : σ) :
    r.ofObject ((before ++ (n, v) :: after).map Value.memberDocument) .closed = .ok s ↔
      r.ofObject ((before ++ (n, w) :: after).map Value.memberDocument) .closed = .ok s := by
  have step (s x : σ) : r.step s (n, v) = .ok x ↔ r.step s (n, w) = .ok x := by
    unfold Record.step
    cases field : r.field? n with
    | none => simp only
    | some f => exact h f field s x
  rw [ofObject_eq_ok_iff, ofObject_eq_ok_iff, List.foldlM_append, List.foldlM_append,
    bind_eq_ok, bind_eq_ok]
  rw [List.map_append, List.map_append, List.map_cons, List.map_cons]
  refine and_congr_right fun _ => exists_congr fun s => and_congr_right fun _ => ?_
  rw [List.foldlM_cons, List.foldlM_cons, bind_eq_ok, bind_eq_ok]
  exact exists_congr fun x => and_congr_left fun _ => step s x

/-- A name without a field is passed over by a record that is lenient. -/
theorem fits_added_iff {r : Record σ} (lenient : r.lenient = true) {n : String}
    (unknown : r.field? n = none) (before after : List String) :
    r.Fits (before ++ n :: after) ↔ r.Fits (before ++ after) := by
  have declared : r.declared (before ++ n :: after) = r.declared (before ++ after) := by
    rw [Record.declared, List.filter_append, Record.declared, List.filter_append]
    exact congrArg _ (declared_cons_unknown unknown after)
  have other {f : Field σ} (mem : f ∈ r.fields) : f.name ≠ n := by
    rintro rfl
    have own := field?_isSome mem
    rw [unknown] at own
    cases own
  constructor
  · rintro ⟨-, once, complete⟩
    refine ⟨fun _ _ => .inl lenient, declared ▸ once, fun f mem required => ?_⟩
    simpa [other mem] using complete f mem required
  · rintro ⟨-, once, complete⟩
    refine ⟨fun _ _ => .inl lenient, declared.symm ▸ once, fun f mem required => ?_⟩
    simpa [other mem] using complete f mem required

theorem ofObject_added {r : Record σ} (lenient : r.lenient = true) {n : String}
    (unknown : r.field? n = none) (v : Value) (before after : List (String × Value)) (s : σ) :
    r.ofObject ((before ++ (n, v) :: after).map Value.memberDocument) .closed = .ok s ↔
      r.ofObject ((before ++ after).map Value.memberDocument) .closed = .ok s := by
  have step (s : σ) : r.step s (n, v) = pure s := by
    rw [Record.step, unknown]
    rfl
  rw [ofObject_eq_ok_iff, ofObject_eq_ok_iff, List.map_append, List.map_cons,
    fits_added_iff lenient unknown, ← List.map_append]
  simp only [List.foldlM_append, List.foldlM_cons, step, pure_bind]

/-! ## Records as lists -/

theorem Regular.field?_name {r : Record σ} (regular : r.Regular) {f : Field σ}
    (h : f ∈ r.fields) : r.field? f.name = some f := by
  obtain ⟨g, field⟩ := Option.isSome_iff_exists.1 (field?_isSome h)
  obtain ⟨hg, name⟩ := of_field? field
  rw [field, List.inj_on_of_nodup_map regular.distinct hg h name]

theorem readItems_eq_ok_iff {r : Record σ} {fields : List (Field σ)} {index : Nat}
    (own : ∀ f ∈ fields, r.field? f.name = some f) {items : List Value} {s s' : σ} :
    r.readItems .closed fields index (items.map Value.document) s = .ok (s', []) ↔
      items.length ≤ fields.length ∧ (∀ f ∈ fields.drop items.length, f.required = false) ∧
      ((fields.map Field.name).zip items).foldlM r.step s = .ok s' := by
  -- on the fields: a list may end before them, and those that are left must be optional then
  induction fields generalizing index items s with
  | nil =>
    cases items with
    | nil =>
      constructor
      · intro h
        cases h
        exact ⟨Nat.le_refl _, nofun, rfl⟩
      · rintro ⟨-, -, fold⟩
        cases fold
        rfl
    | cons v items => exact ⟨nofun, fun h => absurd h.1 (Nat.not_succ_le_zero _)⟩
  | cons f fields ih =>
    obtain ⟨ownF, own⟩ := List.forall_mem_cons.1 own
    cases items with
    | nil =>
      have ih := @ih index own [] s
      have read : r.readItems .closed (f :: fields) index [] s =
          if f.required then .error (.wrongLength index r.lengthText)
          else r.readItems .closed fields index [] s := by
        rw [readItems]
        show (if f.required then _ else _) = _
        split <;> rfl
      rw [List.map_nil, List.zip_nil_right] at ih ⊢
      rw [read]
      by_cases required : f.required = true
      · rw [if_pos required]
        refine ⟨nofun, fun ⟨_, optional, _⟩ => ?_⟩
        exact absurd required (ne_true_of_eq_false (optional f List.mem_cons_self))
      · rw [if_neg required, ih, List.length_nil, List.drop_zero, List.drop_zero,
          List.forall_mem_cons]
        simp only [Nat.zero_le, true_and, Bool.not_eq_true _ ▸ required]
    | cons v items =>
      have step : r.step s (f.name, v) = f.read v.document s := by rw [Record.step, ownF]
      have read : r.readItems .closed (f :: fields) index ((v :: items).map Value.document) s =
          f.read v.document s >>= fun s =>
            r.readItems .closed fields (index + 1) (items.map Value.document) s := rfl
      rw [read, bind_eq_ok, List.map_cons, List.zip_cons_cons, List.foldlM_cons, bind_eq_ok, step]
      simp only [ih own, List.length_cons, Nat.add_le_add_iff_right, List.drop_succ_cons]
      constructor
      · rintro ⟨x, first, short, optional, fold⟩
        exact ⟨short, optional, x, first, fold⟩
      · rintro ⟨short, optional, x, first, fold⟩
        exact ⟨x, first, short, optional, fold⟩

theorem map_fst_zip {α β : Type} (as : List α) (bs : List β) :
    (as.zip bs).map Prod.fst = as.take bs.length := by
  induction as generalizing bs with
  | nil => simp
  | cons a as ih => cases bs <;> simp [ih]

/-- The fields at the front of a record, by their names, are all it needs exactly if none of the
others must be there. -/
theorem Regular.fits_take_iff {r : Record σ} (regular : r.Regular) (n : Nat) :
    r.Fits (r.names.take n) ↔ ∀ f ∈ r.fields.drop n, f.required = false := by
  have distinct := regular.distinct
  rw [names, ← List.take_append_drop n r.fields, List.map_append, List.nodup_append] at distinct
  constructor
  · intro fits f mem
    -- a field among the others that must be there has the name of one at the front
    by_contra required
    have given := fits.complete f (List.mem_of_mem_drop mem) (by simpa using required)
    rw [names, ← List.map_take] at given
    exact distinct.2.2 _ given _ (List.mem_map_of_mem mem) rfl
  · intro optional
    constructor
    · intro name mem
      obtain ⟨f, own, rfl⟩ := List.mem_map.1 (List.mem_of_mem_take mem)
      exact .inr (field?_isSome own)
    · exact regular.distinct.sublist ((List.filter_sublist).trans (List.take_sublist _ _))
    · intro f mem required
      rw [← List.take_append_drop n r.fields, List.mem_append] at mem
      obtain mem | mem := mem
      · rw [names, ← List.map_take]
        exact List.mem_map_of_mem mem
      · exact absurd required (ne_true_of_eq_false (optional f mem))

/-- The items of a list as the members of an object, named by the fields in order. -/
def named (r : Record σ) (items : List Value) : List (String × Value) :=
  r.names.zip items

/-- Items are read in the order of the fields as the members that they would be. -/
theorem Regular.readItems_eq_ok_iff {r : Record σ} (regular : r.Regular) {items : List Value}
    {s : σ} : r.readItems .closed r.fields 0 (items.map Value.document) r.start = .ok (s, []) ↔
      items.length ≤ r.fields.length ∧
        r.ofObject ((r.named items).map Value.memberDocument) .closed = .ok s := by
  rw [Record.readItems_eq_ok_iff fun f => regular.field?_name, ofObject_eq_ok_iff, named,
    map_fst_zip, regular.fits_take_iff, names]

theorem Regular.ofList_eq_ok_iff {r : Record σ} (regular : r.Regular) {items : List Value}
    {s : σ} : r.ofList (items.map Value.document) .closed = .ok s ↔
      items.length ≤ r.fields.length ∧
        r.ofObject ((r.named items).map Value.memberDocument) .closed = .ok s := by
  rw [← regular.readItems_eq_ok_iff, ofList, bind_eq_ok]
  constructor
  · rintro ⟨⟨s', rest⟩, read, h⟩
    cases rest with
    | nil =>
      cases h
      exact read
    | cons => cases h
  · intro read
    exact ⟨_, read, rfl⟩

theorem Regular.ofWholeList_eq_ok_iff {r : Record σ} (regular : r.Regular) {items : List Value}
    {s : σ} : r.ofWholeList (items.map Value.document) = .ok s ↔
      items.length ≤ r.fields.length ∧
        r.ofObject ((r.named items).map Value.memberDocument) .closed = .ok s := by
  rw [← regular.readItems_eq_ok_iff, ofWholeList, bind_eq_ok]
  constructor
  · rintro ⟨⟨s', rest⟩, read, h⟩
    cases rest with
    | nil =>
      cases h
      exact read
    | cons => cases h
  · intro read
    exact ⟨_, read, rfl⟩

/-- An item is named by the field in its place. -/
theorem exists_named {r : Record σ} {before after : List Value} {v : Value}
    (short : (before ++ v :: after).length ≤ r.fields.length) :
    ∃ f ms ms', r.fields[before.length]? = some f ∧
      ∀ w, r.named (before ++ w :: after) = ms ++ (f.name, w) :: ms' := by
  rw [List.length_append, List.length_cons] at short
  have place : before.length < r.fields.length := by omega
  refine ⟨r.fields[before.length], ((r.fields.take before.length).map Field.name).zip before,
    ((r.fields.drop (before.length + 1)).map Field.name).zip after,
    List.getElem?_eq_getElem place, fun w => ?_⟩
  have fields : r.fields = r.fields.take before.length ++
      r.fields[before.length] :: r.fields.drop (before.length + 1) := by
    rw [← List.drop_eq_getElem_cons place, List.take_append_drop]
  have lengths : ((r.fields.take before.length).map Field.name).length = before.length := by
    rw [List.length_map, List.length_take]
    omega
  rw [named, names]
  conv => lhs; rw [fields]
  rw [List.map_append, List.map_cons, List.zip_append lengths, List.zip_cons_cons]

/-! ## Reading records -/

theorem decode_object (r : Record σ) (ms : List (String × Value)) :
    r.decode (Value.object ms).document =
      r.ofObject (ms.map Value.memberDocument) .closed := by
  rw [Value.document, Value.memberDocuments_eq_map]
  rfl

theorem decode_list (r : Record σ) (items : List Value) :
    r.decode (Value.list items).document = r.ofList (items.map Value.document) .closed := by
  rw [Value.document, Value.itemDocuments_eq_map]
  rfl

theorem agrees_inMember {r : Record σ} {n : String} {v w : Value} (h : r.FieldAgrees n v w)
    (before after : List (String × Value)) :
    r.decode.Agrees (.object (before ++ (n, v) :: after))
      (.object (before ++ (n, w) :: after)) := by
  intro s
  rw [decode_object, decode_object]
  exact ofObject_member h before after s

theorem Regular.named_agrees {r : Record σ} (regular : r.Regular) {v w : Value}
    {before : List Value} (h : ∀ f, r.fields[before.length]? = some f → f.Agrees v w)
    (after : List Value) (s : σ) :
    ((before ++ v :: after).length ≤ r.fields.length ∧
        r.ofObject ((r.named (before ++ v :: after)).map Value.memberDocument) .closed = .ok s) ↔
      (before ++ w :: after).length ≤ r.fields.length ∧
        r.ofObject ((r.named (before ++ w :: after)).map Value.memberDocument) .closed = .ok s := by
  have length : (before ++ w :: after).length = (before ++ v :: after).length := by simp
  rw [length]
  refine and_congr_right fun short => ?_
  obtain ⟨f, ms, ms', place, named⟩ := exists_named short
  rw [named v, named w]
  refine ofObject_member (fun g field => ?_) ms ms' s
  rw [regular.field?_name (List.mem_of_getElem? place)] at field
  cases field
  exact h f place

theorem Regular.agrees_inItem {r : Record σ} (regular : r.Regular) {v w : Value}
    {before : List Value} (h : ∀ f, r.fields[before.length]? = some f → f.Agrees v w)
    (after : List Value) :
    r.decode.Agrees (.list (before ++ v :: after)) (.list (before ++ w :: after)) := by
  intro s
  rw [decode_list, decode_list, regular.ofList_eq_ok_iff, regular.ofList_eq_ok_iff]
  exact regular.named_agrees h after s

theorem Regular.stores_agrees {r : Record σ} (regular : r.Regular) {f : Field σ}
    (h : f ∈ r.fields) {v w : Value} (rearranged : v.Rearranged w) : f.Agrees v w := by
  obtain ⟨α, read, set, stores, inner⟩ := regular.stores f h
  exact stores.agrees (inner.agrees rearranged)

theorem Regular.stores_value {r : Record σ} (regular : r.Regular) {f : Field σ}
    (h : f ∈ r.fields) {d : Document} {s x : σ} (ok : f.read d s = .ok x) :
    ∃ v : Value, d = v.document := by
  obtain ⟨α, read, set, stores, inner⟩ := regular.stores f h
  obtain ⟨a, ok, -⟩ := stores.read_eq_ok_iff.1 ok
  exact inner.value ok

theorem Regular.exists_members {r : Record σ} (regular : r.Regular) (strict : r.lenient = false)
    {members : List (Document × Except Problem Document)} {seen seen' : List String} {s s' : σ}
    (h : r.readMembers members seen s = .ok (s', seen')) :
    ∃ ms : List (String × Value), members = ms.map Value.memberDocument := by
  induction members generalizing seen s with
  | nil => exact ⟨[], rfl⟩
  | cons m members ih =>
    obtain ⟨key, value⟩ := m
    obtain ⟨name, named, step⟩ := bind_eq_ok.1 h
    obtain rfl := Document.key_eq_ok named
    split at step
    · rw [strict] at step
      cases step
    next f field =>
    dsimp only at step
    split at step
    · cases step
    obtain ⟨d, given, step'⟩ := bind_eq_ok.1 step
    obtain ⟨s₁, read, further⟩ := bind_eq_ok.1 step'
    subst given
    obtain ⟨v, rfl⟩ := regular.stores_value (of_field? field).1 read
    obtain ⟨ms, rfl⟩ := ih further
    exact ⟨(name, v) :: ms, rfl⟩

theorem Regular.exists_items {r : Record σ} (regular : r.Regular) {ending : Ending}
    {fields : List (Field σ)} (own : ∀ f ∈ fields, f ∈ r.fields) {index : Nat}
    {items : List Document} {s s' : σ}
    (h : r.readItems ending fields index items s = .ok (s', [])) :
    ∃ values : List Value, items = values.map Value.document := by
  induction fields generalizing index items s with
  | nil =>
    cases h
    exact ⟨[], rfl⟩
  | cons f fields ih =>
    obtain ⟨ownF, own⟩ := List.forall_mem_cons.1 own
    cases items with
    | nil => exact ⟨[], rfl⟩
    | cons item items =>
      obtain ⟨s₁, read, further⟩ := bind_eq_ok.1 h
      obtain ⟨v, rfl⟩ := regular.stores_value ownF read
      obtain ⟨values, rfl⟩ := ih own further
      exact ⟨v :: values, rfl⟩

/-- A record is read from values, in whatever order the members of objects stand. -/
theorem Regular.decode {r : Record σ} (regular : r.Regular) (strict : r.lenient = false) :
    r.decode.Regular where
  value {d s} ok := by
    unfold Record.decode at ok
    split at ok
    · next members ending =>
      obtain ⟨⟨s', seen⟩, read, h⟩ := bind_eq_ok.1 ok
      obtain ⟨ms, rfl⟩ := regular.exists_members strict read
      obtain ⟨⟨⟩, ends, -⟩ := bind_eq_ok.1 h
      obtain rfl := Document.checkObject_eq_ok ends
      exact ⟨.object ms, by rw [Value.document, Value.memberDocuments_eq_map]⟩
    · next items ending =>
      obtain ⟨⟨s', rest⟩, read, h⟩ := bind_eq_ok.1 ok
      cases rest with
      | nil =>
        obtain ⟨values, rfl⟩ := regular.exists_items (fun _ own => own) read
        obtain ⟨⟨⟩, ends, -⟩ := bind_eq_ok.1 h
        obtain rfl : ending = .closed := by cases ending <;> cases ends; rfl
        exact ⟨.list values, by rw [Value.document, Value.itemDocuments_eq_map]⟩
      | cons => cases h
    · exact absurd ok (Decoder.refuse_ne_ok _ _ _)
  -- on how the one value is the other one rearranged, in one place at a time
  agrees {v w} rearranged := by
    induction rearranged with
    | refl => exact fun _ => Iff.rfl
    | trans _ _ ih ih' => exact ih.trans ih'
    | members perm =>
      intro s
      rw [decode_object, decode_object]
      exact regular.ofObject_perm perm s
    | inItem before after inner =>
      exact regular.agrees_inItem
        (fun f place => regular.stores_agrees (List.mem_of_getElem? place) inner) after
    | inMember before after name inner =>
      exact agrees_inMember
        (fun f field => regular.stores_agrees (of_field? field).1 inner) before after

end Record

end PatchTrial.Json
