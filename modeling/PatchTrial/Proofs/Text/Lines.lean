import PatchTrial.Proofs.Text.Utf8
import PatchTrial.Validator.Judgment

/-!
Lines of bytes. A log is read as a text, lossily, and the text is cut into lines. The byte of a line
feed stands in no longer character, whole or broken, so the bytes might as well be cut first and each
line be read on its own.

What is proved:
  1. `lossy_plain` and `mem_of_mem_lossy`: a plain character of the text is its own byte, and what
     stands before it and after it is read apart.
  2. `pieces_lossy` and `dropReturn_lossy`: cutting the text is cutting the bytes.
  3. `logLines_eq_byteLines`: so the lines of a log are those of its bytes, and whatever bytes stand
     in one line, the other lines are where they were and say what they said.
-/
namespace PatchTrial

/-! ## Lines of bytes -/

def lineFeed : UInt8 := 0x0A

def carriageReturn : UInt8 := 0x0D

def dropReturn (piece : Bytes) : Bytes :=
  if piece.getLast? = some carriageReturn then piece.dropLast else piece

/-- The lines of a byte string: what stands before each line feed, less one carriage return at its
end, and what stands after the last line feed, unless that is nothing. -/
def byteLines (bytes : Bytes) : List Bytes :=
  let pieces := bytes.splitOn lineFeed
  pieces.dropLast.map dropReturn ++ pieces.getLast?.toList.filter (!·.isEmpty)

/-- The lines before a line feed and those after it. -/
theorem byteLines_append (front back : Bytes) :
    byteLines (front ++ lineFeed :: back) = byteLines (front ++ [lineFeed]) ++ byteLines back := by
  have pieces : back.splitOn lineFeed ≠ [] := List.splitOn_ne_nil lineFeed back
  have last : (front.splitOn lineFeed ++ back.splitOn lineFeed).getLast? =
      (back.splitOn lineFeed).getLast? := by
    rw [List.getLast?_append, List.getLast?_eq_some_getLast pieces, Option.some_or]
  simp only [byteLines, List.splitOn_append_cons_self, List.splitOn_nil]
  rw [List.dropLast_append_of_ne_nil pieces, last, List.dropLast_concat, List.getLast?_concat,
    List.map_append]
  simp

/-- A byte string that leaves no line open. -/
def Ended (bytes : Bytes) : Prop := bytes = [] ∨ bytes.getLast? = some lineFeed

instance (bytes : Bytes) : Decidable (Ended bytes) := inferInstanceAs (Decidable (_ ∨ _))

theorem Ended.byteLines_append {front : Bytes} (h : Ended front) (back : Bytes) :
    byteLines (front ++ back) = byteLines front ++ byteLines back := by
  rcases h with rfl | last
  · rfl
  · obtain ⟨before, rfl⟩ := List.getLast?_eq_some_iff.1 last
    rw [List.append_assoc, List.singleton_append]
    exact PatchTrial.byteLines_append before back

/-- A line that a line feed ends. -/
theorem byteLines_ended {line : Bytes} (h : lineFeed ∉ line) :
    byteLines (line ++ [lineFeed]) = [dropReturn line] := by
  rw [byteLines, List.splitOn_append_cons_self, List.splitOn_eq_singleton h]
  rfl

/-- A last line that nothing ends. -/
theorem byteLines_last {line : Bytes} (h : lineFeed ∉ line) :
    byteLines line = if line.isEmpty then [] else [line] := by
  rw [byteLines, List.splitOn_eq_singleton h]
  cases line <;> rfl

namespace Utf8

/-! ## Where the characters of a text are in its bytes -/

theorem suffix_continue? (n point : Nat) (bytes : Bytes) : (continue? n point bytes).2 <:+ bytes := by
  induction n generalizing point bytes with
  | zero => exact List.suffix_refl bytes
  | succ n ih =>
    cases bytes with
    | nil => exact List.suffix_refl []
    | cons b rest =>
      rw [continue?]
      split
      · exact (ih _ rest).trans (List.suffix_cons b rest)
      · exact List.suffix_refl (b :: rest)

theorem suffix_of_next? {bytes rest : Bytes} {c : Option Char} (h : next? bytes = some (c, rest)) :
    rest <:+ bytes := by
  cases bytes with
  | nil => cases h
  | cons a tail =>
    simp only [next?] at h
    split at h
    · cases h
      exact List.suffix_cons a _
    · split at h
      · next low high n b more _ =>
        split at h
        · have taken := suffix_continue? n (leadBits a n * 64 + b.toNat % 64) more
          rw [Option.some.inj h] at taken
          exact taken.trans ((List.suffix_cons b more).trans (List.suffix_cons a _))
        · cases h
          exact List.suffix_cons a _
      · cases h
        exact List.suffix_cons a _

/-- Every character among the parts was written somewhere, and what comes after it are the parts of
what is written behind it. -/
theorem exists_of_parts {bytes : Bytes} {before after : List (Option Char)} {c : Char}
    (h : parts bytes = before ++ some c :: after) :
    ∃ front rest, bytes = front ++ String.utf8EncodeChar c ++ rest ∧ parts rest = after := by
  induction before generalizing bytes with
  | nil =>
    cases hn : next? bytes with
    | none =>
      rw [eq_nil_of_next? hn, parts_nil] at h
      cases h
    | some step =>
      obtain ⟨d, rest⟩ := step
      rw [parts_of_next? hn, List.nil_append, List.cons.injEq] at h
      obtain ⟨rfl, tail⟩ := h
      exact ⟨[], rest, eq_encodeChar_of_next? hn, tail⟩
  | cons first before ih =>
    cases hn : next? bytes with
    | none =>
      rw [eq_nil_of_next? hn, parts_nil] at h
      cases h
    | some step =>
      obtain ⟨d, rest⟩ := step
      rw [parts_of_next? hn, List.cons_append, List.cons.injEq] at h
      obtain ⟨front, back, e, tail⟩ := ih h.2
      obtain ⟨taken, rfl⟩ := suffix_of_next? hn
      exact ⟨taken ++ front, back, by rw [e, List.append_assoc, List.append_assoc,
        List.append_assoc], tail⟩

/-- The characters of the lossy reading. -/
def lossy (bytes : Bytes) : List Char := (parts bytes).map (·.getD replacement)

theorem decodeLossy_eq (bytes : Bytes) : decodeLossy bytes = String.ofList (lossy bytes) := rfl

theorem lossy_eq_nil_iff {bytes : Bytes} : lossy bytes = [] ↔ bytes = [] := by
  constructor
  · intro h
    cases hn : next? bytes with
    | none => exact eq_nil_of_next? hn
    | some step =>
      obtain ⟨c, rest⟩ := step
      rw [lossy, parts_of_next? hn] at h
      cases h
  · intro h
    rw [h, lossy, parts_nil]
    rfl

section Plain
variable {c : Char} (plain : Plain c)
include plain

/-- What stands before a plain character and what stands after it are read apart. -/
theorem lossy_plain (xs ys : Bytes) :
    lossy (xs ++ UInt8.ofNat c.toNat :: ys) = lossy xs ++ c :: lossy ys := by
  have first := (encodeChar_of_plain plain).2 ys
  have starts : StartsPlain (UInt8.ofNat c.toNat :: ys) := by
    intro b hb
    obtain rfl : UInt8.ofNat c.toNat = b := Option.some.inj hb
    rw [UInt8.lt_iff_toNat_lt, UInt8.toNat_ofNat']
    exact Nat.lt_of_le_of_lt (Nat.mod_le _ _) plain
  rw [lossy, parts_append starts, parts_of_next? first, List.map_append]
  rfl

/-- A plain character stands for its byte, unless it is what broken parts are shown as. -/
theorem exists_of_lossy {bytes : Bytes} {before after : List Char}
    (h : lossy bytes = before ++ c :: after) :
    ∃ front rest, bytes = front ++ UInt8.ofNat c.toNat :: rest ∧ lossy rest = after := by
  obtain ⟨front, back, e, -, tail⟩ := List.map_eq_append_iff.1 h
  obtain ⟨part, rest, rfl, shown, rfl⟩ := List.map_eq_cons_iff.1 tail
  cases part with
  | none =>
    -- broken parts are shown as a character of three bytes
    obtain rfl : replacement = c := shown
    exact absurd plain (by decide)
  | some d =>
    obtain rfl : d = c := shown
    obtain ⟨before, after, he, ht⟩ := exists_of_parts e
    rw [(encodeChar_of_plain plain).1, List.append_assoc] at he
    exact ⟨before, after, he, by rw [lossy, ht]⟩

end Plain

theorem mem_of_mem_lossy {c : Char} (plain : Plain c) {bytes : Bytes} (h : c ∈ lossy bytes) :
    UInt8.ofNat c.toNat ∈ bytes := by
  obtain ⟨before, after, e⟩ := List.append_of_mem h
  obtain ⟨front, rest, rfl, -⟩ := exists_of_lossy plain e
  simp

/-! ## Cutting the text -/

theorem pieces_eq_splitOn (cs : List Char) : Text.pieces cs = cs.splitOn '\n' := by
  induction cs with
  | nil => rfl
  | cons c rest ih =>
    rw [Text.pieces, List.splitOn_cons_eq_if_modifyHead, ← ih]
    by_cases hc : c = '\n'
    · rw [if_pos hc, if_pos (beq_iff_eq.2 hc)]
    · rw [if_neg hc, if_neg (by simpa using hc)]
      cases hp : Text.pieces rest with
      | nil => exact absurd (ih ▸ hp) (List.splitOn_ne_nil '\n' rest)
      | cons piece more => rfl

/-- The pieces of a text are those of its bytes. -/
theorem pieces_lossy (bytes : Bytes) :
    Text.pieces (lossy bytes) = (bytes.splitOn lineFeed).map lossy := by
  rw [pieces_eq_splitOn]
  induction hn : bytes.length using Nat.strongRecOn generalizing bytes with
  | ind n ih =>
    by_cases h : lineFeed ∈ bytes
    · obtain ⟨front, back, rfl, first⟩ := List.eq_append_cons_of_mem h
      have apart : lossy (front ++ lineFeed :: back) = lossy front ++ '\n' :: lossy back :=
        lossy_plain (c := '\n') (by decide) front back
      have whole : '\n' ∉ lossy front := fun hm => first (mem_of_mem_lossy (by decide) hm)
      rw [List.length_append, List.length_cons] at hn
      rw [apart, List.splitOn_append_cons_self, List.splitOn_append_cons_self,
        ih back.length (by omega) back rfl, List.splitOn_eq_singleton first,
        List.splitOn_eq_singleton whole]
      rfl
    · have whole : '\n' ∉ lossy bytes := fun hm => h (mem_of_mem_lossy (by decide) hm)
      rw [List.splitOn_eq_singleton h, List.splitOn_eq_singleton whole]
      rfl

/-- A text ends in a carriage return exactly if its bytes do. -/
theorem dropReturn_lossy (piece : Bytes) : Text.dropReturn (lossy piece) = lossy (dropReturn piece) := by
  rw [Text.dropReturn, dropReturn]
  by_cases h : piece.getLast? = some carriageReturn
  · obtain ⟨front, rfl⟩ := List.getLast?_eq_some_iff.1 h
    have apart : lossy (front ++ [carriageReturn]) = lossy front ++ ['\r'] := by
      have := lossy_plain (c := '\r') (by decide) front []
      rwa [lossy_eq_nil_iff.2 rfl] at this
    rw [if_pos h, List.dropLast_concat, apart, List.getLast?_concat, if_pos rfl, List.dropLast_concat]
  · rw [if_neg h, if_neg]
    intro last
    obtain ⟨front, e⟩ := List.getLast?_eq_some_iff.1 last
    obtain ⟨before, rest, rfl, none⟩ := exists_of_lossy (c := '\r') (by decide) e
    rw [lossy_eq_nil_iff] at none
    subst none
    exact h List.getLast?_concat

/-- The lines of pieces, the last piece apart. -/
theorem linesOfPieces_eq (pieces : List (List Char)) :
    Text.linesOfPieces pieces =
      pieces.dropLast.map Text.dropReturn ++ pieces.getLast?.toList.filter (!·.isEmpty) := by
  induction pieces with
  | nil => rfl
  | cons piece more ih =>
    cases more with
    | nil => cases piece <;> rfl
    | cons next rest =>
      rw [Text.linesOfPieces, ih, List.dropLast_cons_cons, List.getLast?_cons_cons]
      · rfl
      · intro h
        cases h

theorem isEmpty_lossy (bytes : Bytes) : (lossy bytes).isEmpty = bytes.isEmpty := by
  rw [Bool.eq_iff_iff, List.isEmpty_iff, List.isEmpty_iff, lossy_eq_nil_iff]

theorem lines_decodeLossy (bytes : Bytes) :
    Text.lines (decodeLossy bytes) = (byteLines bytes).map decodeLossy := by
  have ended : Text.dropReturn ∘ lossy = lossy ∘ dropReturn := funext dropReturn_lossy
  have nonempty : (!·.isEmpty) ∘ lossy = fun bytes => !bytes.isEmpty :=
    funext fun bytes => congrArg Bool.not (isEmpty_lossy bytes)
  rw [Text.lines, decodeLossy_eq, String.toList_ofList, pieces_lossy, linesOfPieces_eq, byteLines,
    ← List.map_dropLast, List.getLast?_map, Option.toList_map, List.filter_map, List.map_map, ended,
    nonempty, ← List.map_map, ← List.map_append, List.map_map]
  rfl

theorem decodeLossy_of_decode? {bytes : Bytes} {text : String} (h : decode? bytes = some text) :
    decodeLossy bytes = text := by
  rw [decode?_eq_some_iff.1 h, decodeLossy_encode]

end Utf8

/-! ## The lines of a log -/

namespace Validator

/-- The lines that a validator judges are those of the bytes of the log, each read on its own. So a
line that is ended is one line, whatever other bytes stand in it, and so is one at the end of the log,
and the lines before it and after it are those that they are without it. A line that is text is judged
as that text. -/
theorem logLines_eq_byteLines :
    (∀ (v : Validator) log bytes,
      v.judge log (.ok bytes) = v.table.evaluate ((byteLines bytes).map Utf8.decodeLossy)) ∧
      (∀ bytes, logLines bytes = (byteLines bytes).map Utf8.decodeLossy) ∧
      (∀ front line back, Ended front → lineFeed ∉ line →
        logLines (front ++ (line ++ lineFeed :: back)) =
          logLines front ++ Utf8.decodeLossy (dropReturn line) :: logLines back) ∧
      (∀ front line, Ended front → lineFeed ∉ line → line ≠ [] →
        logLines (front ++ line) = logLines front ++ [Utf8.decodeLossy line]) ∧
      ∀ line text, Utf8.decode? line = some text → Utf8.decodeLossy line = text := by
  have lines (bytes : Bytes) : logLines bytes = (byteLines bytes).map Utf8.decodeLossy :=
    Utf8.lines_decodeLossy bytes
  refine ⟨fun v log bytes => ?_, lines, fun front line back ended one => ?_,
    fun front line ended one some => ?_, fun line text => Utf8.decodeLossy_of_decode?⟩
  · rw [judge, lines]
  · rw [lines, lines, lines, ended.byteLines_append, byteLines_append line, byteLines_ended one,
      List.map_append, List.map_append]
    rfl
  · rw [lines, lines, ended.byteLines_append, byteLines_last one, List.map_append, if_neg]
    · rfl
    · exact fun none => some (List.isEmpty_iff.1 none)

/-- A character that is cut off before the end of a line, and one that is cut off at the end of the
log. -/
theorem cut_characters_stay :
    logLines (Utf8.encode "é\r\n" ++ ([0xE2, 0x82, carriageReturn] ++ lineFeed :: Utf8.encode "é\n")) =
        ["é", "\uFFFD", "é"] ∧
      logLines (Utf8.encode "é\r\n" ++ [0xF0, 0x9F, carriageReturn]) = ["é", "\uFFFD\r"] ∧
      Utf8.decodeLossy (Utf8.encode "é") = "é" := by
  obtain ⟨-, -, ended, last, text⟩ := logLines_eq_byteLines
  refine ⟨(ended _ _ _ (by decide) (by decide)).trans ?_,
    (last _ _ (by decide) (by decide) (by decide)).trans ?_,
    text _ _ (Utf8.decode?_eq_some_iff.2 rfl)⟩
  · decide +kernel
  · decide +kernel

end Validator
end PatchTrial
