import Mathlib.Data.List.TakeDrop
import Mathlib.Data.List.TakeWhile

/-!
Texts cut at the first of a character, and at the end of a run of characters of one kind.
-/
namespace PatchTrial.Text

/-- A text begins with a run of characters of one kind, which may be empty. -/
theorem exists_run (kind : Char → Bool) (cs : List Char) :
    ∃ run rest, cs = run ++ rest ∧ (∀ c ∈ run, kind c = true) ∧ ∀ c ∈ rest.head?, kind c = false := by
  refine ⟨cs.takeWhile kind, cs.dropWhile kind, List.takeWhile_append_dropWhile.symm,
    fun c => List.mem_takeWhile_imp, fun c hc => ?_⟩
  have other := List.head?_dropWhile_not kind cs
  rw [hc] at other
  exact other

theorem span_append {c : Char} {before after : List Char} (h : c ∉ before) :
    (before ++ c :: after).span (· != c) = (before, c :: after) := by
  have inside : ∀ d ∈ before, (d != c) = true := by
    intro d hd
    rw [bne_iff_ne]
    intro e
    exact h (e ▸ hd)
  rw [List.span_eq_takeWhile_dropWhile, List.takeWhile_append_of_pos inside,
    List.dropWhile_append_of_pos inside, List.takeWhile_cons_of_neg (by simp),
    List.dropWhile_cons_of_neg (by simp), List.append_nil]

theorem span_of_notMem {c : Char} {cs : List Char} (h : c ∉ cs) : cs.span (· != c) = (cs, []) := by
  have all : ∀ d ∈ cs, (d != c) = true := fun d hd => bne_iff_ne.2 fun e => h (e ▸ hd)
  rw [List.span_eq_takeWhile_dropWhile, List.takeWhile_eq_self_iff.2 all, List.dropWhile_eq_nil_iff.2 all]

/-- A character is not in a text, or the text is cut at the first of it. -/
theorem notMem_or_exists_first (c : Char) (cs : List Char) :
    c ∉ cs ∨ ∃ before after, cs = before ++ c :: after ∧ c ∉ before := by
  obtain ⟨run, rest, rfl, others, next⟩ := exists_run (· != c) cs
  have absent : c ∉ run := fun hm => by simpa using others c hm
  cases rest with
  | nil => exact .inl (by rwa [List.append_nil])
  | cons d rest =>
    obtain rfl : d = c := by simpa using next d rfl
    exact .inr ⟨run, rest, rfl, absent⟩

end PatchTrial.Text
