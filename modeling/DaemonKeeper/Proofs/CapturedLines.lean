import DaemonKeeper.Proofs.Decoding
import DaemonKeeper.Text.Lines
set_option autoImplicit false

/-!
# Lines of captured output (SPEC §3.1)

Captured bytes are decoded as a whole and then split, with the same result as if each line had been
taken out first: a line feed is never part of a longer sequence, so damage in one line stays there.
Texts without line feeds come back from their bytes, whichever of the two endings each line has.
-/

namespace DaemonKeeper.Text

variable {cs : List Char} {bs : List UInt8}

/-! ## Lines of a text -/

theorem dropReturn_of_getLast? (h : cs.getLast? ≠ some '\r') : dropReturn cs = cs :=
  if_neg h

theorem dropReturn_concat (cs : List Char) : dropReturn (cs ++ ['\r']) = cs := by
  simp [dropReturn]

/-- All pieces but those at the end have ended at a line feed. -/
theorem linesOfPieces_append {last : List (List Char)} (h : last ≠ []) (ended : List (List Char)) :
    linesOfPieces (ended ++ last) = ended.map dropReturn ++ linesOfPieces last := by
  induction ended with
  | nil => rfl
  | cons line ended ih =>
    obtain ⟨next, more, hnext⟩ : ∃ next more, ended ++ last = next :: more :=
      List.exists_cons_of_ne_nil (by simp [h])
    rw [List.cons_append, hnext, linesOfPieces, ← hnext, ih, List.map_cons, List.cons_append]
    simp

/-- The lines before a line feed and those after it are found apart. -/
theorem lines_append_feed (before after : List Char) :
    lines (before ++ '\n' :: after) = (pieces '\n' before).map dropReturn ++ lines after := by
  rw [lines, pieces_append_separator, linesOfPieces_append (pieces_ne_nil _ _), lines]

theorem dropReturn_isPrefix (cs : List Char) : dropReturn cs <+: cs := by
  unfold dropReturn
  split
  · exact List.dropLast_prefix cs
  · exact List.prefix_rfl

/-- Every line is a piece, perhaps without the return at its end. -/
theorem exists_piece_of_mem {line : List Char} {ps : List (List Char)}
    (h : line ∈ linesOfPieces ps) : ∃ piece ∈ ps, line <+: piece := by
  induction ps with
  | nil => simp [linesOfPieces] at h
  | cons piece rest ih =>
    cases rest with
    | nil =>
      rw [linesOfPieces] at h
      split at h
      · simp at h
      · exact ⟨piece, List.mem_cons_self, List.mem_singleton.mp h ▸ List.prefix_rfl⟩
    | cons next more =>
      rw [linesOfPieces] at h
      rcases List.mem_cons.mp h with rfl | h
      · exact ⟨piece, List.mem_cons_self, dropReturn_isPrefix piece⟩
      · obtain ⟨found, hfound, hfront⟩ := ih h
        exact ⟨found, List.mem_cons_of_mem _ hfound, hfront⟩
      · simp

theorem feed_notMem_of_mem_lines {line : List Char} (h : line ∈ lines cs) : '\n' ∉ line := by
  obtain ⟨piece, hpiece, hfront⟩ := exists_piece_of_mem h
  exact fun hmem => notMem_of_mem_pieces hpiece (hfront.subset hmem)

/-! ## Lines of bytes -/

/-- The lines of what stands before a line feed and of what stands after it are found apart. -/
theorem splitLines_append_feed (a b : List UInt8) :
    splitLines (a ++ 10 :: b) =
      (pieces '\n' (decodeLossy a)).map (fun piece => String.ofList (dropReturn piece)) ++
        splitLines b := by
  rw [splitLines, decodeLossy_append_ascii (by decide)]
  have hfeed : Char.ofNat (10 : UInt8).toNat = '\n' := rfl
  rw [hfeed, lines_append_feed, List.map_append, List.map_map, splitLines]
  rfl

/-- A line without a line feed of its own is read by itself. -/
theorem splitLines_cons (h : 10 ∉ bs) (rest : List UInt8) :
    splitLines (bs ++ 10 :: rest) =
      String.ofList (dropReturn (decodeLossy bs)) :: splitLines rest := by
  rw [splitLines_append_feed, pieces_of_notMem (mt (feed_mem_iff bs).mpr h)]
  rfl

/-! ## Lines that were written -/

/-- How a line is ended: by a line feed, or by a return and a line feed. -/
inductive Ending where
  | feed
  | returnFeed
  deriving DecidableEq

/-- The bytes of an ending. -/
def Ending.bytes : Ending → List UInt8
  | feed => [10]
  | returnFeed => [13, 10]

/-- A line that was written is read back, and what follows it is read by itself. -/
theorem splitLines_written {line : String} (hfeed : '\n' ∉ line.toList)
    (hreturn : line.toList.getLast? ≠ some '\r') (ending : Ending) (rest : List UInt8) :
    splitLines (encode line.toList ++ ending.bytes ++ rest) = line :: splitLines rest := by
  have htext : 10 ∉ encode line.toList := by
    rw [feed_mem_iff, decodeLossy_encode]
    exact hfeed
  cases ending with
  | feed =>
    have hsplit : encode line.toList ++ Ending.feed.bytes ++ rest =
        encode line.toList ++ 10 :: rest := by simp [Ending.bytes]
    rw [hsplit, splitLines_cons htext, decodeLossy_encode, dropReturn_of_getLast? hreturn,
      String.ofList_toList]
  | returnFeed =>
    have hsplit : encode line.toList ++ Ending.returnFeed.bytes ++ rest =
        (encode line.toList ++ [13]) ++ 10 :: rest := by simp [Ending.bytes]
    have hdecoded : decodeLossy (encode line.toList ++ [13]) = line.toList ++ ['\r'] := by
      rw [decodeLossy_append_ascii (by decide), decodeLossy_encode, decodeLossy]
      rfl
    rw [hsplit, splitLines_cons (by simp [htext]), hdecoded, dropReturn_concat,
      String.ofList_toList]

/-- Captured output is read line by line: a line feed keeps what stands before it and what stands
after it apart, whatever bytes those are; no line has a line feed; and lines that were written, each
with either ending, are read back.  Damage shows as one U+FFFD for each part that can be no
character. -/
theorem lines_are_read_apart :
    (∀ a b : List UInt8, splitLines (a ++ [10] ++ b) = splitLines (a ++ [10]) ++ splitLines b) ∧
    (∀ bs : List UInt8, ∀ line ∈ splitLines bs, '\n' ∉ line.toList) ∧
    (∀ written : List (String × Ending),
      (∀ w ∈ written, '\n' ∉ w.1.toList ∧ w.1.toList.getLast? ≠ some '\r') →
      splitLines (written.flatMap fun w => w.1.toUTF8.data.toList ++ w.2.bytes) =
        written.map Prod.fst) ∧
    ∀ (bs : List UInt8) (cs : List Char), decodeLossy bs = cs ↔ Decoded bs cs := by
  have hnil : splitLines [] = [] := by simp [splitLines, decodeLossy, lines, pieces, linesOfPieces]
  refine ⟨fun a b => ?_, fun bs line hline => ?_, fun written h => ?_, fun bs cs => decodeLossy_eq_iff⟩
  · rw [List.append_assoc, List.singleton_append, splitLines_append_feed, splitLines_append_feed,
      hnil, List.append_nil]
  · obtain ⟨cs, hcs, rfl⟩ := List.mem_map.mp hline
    rw [String.toList_ofList]
    exact feed_notMem_of_mem_lines hcs
  · induction written with
    | nil => exact hnil
    | cons w written ih =>
      obtain ⟨⟨hfeed, hreturn⟩, hwritten⟩ := List.forall_mem_cons.mp h
      rw [List.flatMap_cons, ← encode_eq_toUTF8, splitLines_written hfeed hreturn, ih hwritten,
        List.map_cons]

/-- A name that breaks off within a character, and lines with both endings. -/
theorem lines_are_read_apart_broken :
    splitLines ([0x61, 0xE2, 0x82] ++ [10] ++ [0xC3, 0xA9, 13, 10]) = ["a\uFFFD", "é"] ∧
    (∀ w ∈ [("main", Ending.feed), ("größe", Ending.returnFeed), ("", Ending.feed)],
      '\n' ∉ w.1.toList ∧ w.1.toList.getLast? ≠ some '\r') ∧
    splitLines ([("main", Ending.feed), ("größe", Ending.returnFeed), ("", Ending.feed)].flatMap
      fun w => w.1.toUTF8.data.toList ++ w.2.bytes) = ["main", "größe", ""] := by
  have hwritten : ∀ w ∈ [("main", Ending.feed), ("größe", Ending.returnFeed), ("", Ending.feed)],
      '\n' ∉ w.1.toList ∧ w.1.toList.getLast? ≠ some '\r' := by
    simp
  obtain ⟨happart, -, hread, -⟩ := lines_are_read_apart
  refine ⟨?_, hwritten, hread _ hwritten⟩
  rw [happart]
  decide +kernel

end DaemonKeeper.Text
