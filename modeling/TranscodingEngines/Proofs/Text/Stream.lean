import Mathlib.Data.List.DropRight
import Mathlib.Tactic.SplitIfs
import TranscodingEngines.Host.Process

/-!
# Lines of a stream

The lines of a stream can be read off its bytes, one line feed after the other, or off the text that
the bytes as a whole stand for. Both ways lead to the same lines: no ill-formed piece reaches over a
line feed, and no line feed comes from any other bytes.
-/

set_option autoImplicit false

namespace TranscodingEngines.Text

/-! ## Bytes in front of a line feed -/

theorem scanTails_lineFeed (left used value : Nat) (front rest : List UInt8) :
    scanTails left used value (front ++ 0x0a :: rest) = scanTails left used value front := by
  induction front generalizing left used value with
  | nil =>
    cases left with
    | zero => rfl
    | succ left =>
      have hTail : isTail 0x0a = false := by decide
      simp [scanTails, hTail]
  | cons b front ih =>
    cases left with
    | zero => rfl
    | succ left => simp only [List.cons_append, scanTails, ih]

theorem extra_scanTails_le (left used value : Nat) (bs : List UInt8) :
    (scanTails left used value bs).extra ≤ used + bs.length := by
  induction bs generalizing left used value with
  | nil => cases left <;> simp [scanTails]
  | cons b bs ih =>
    cases left with
    | zero => simp [scanTails]
    | succ left =>
      have hLater := ih left (used + 1) (value * 64 + tailBits b)
      simp only [scanTails, List.length_cons]
      split
      · omega
      · simp

theorem not_secondRange_lineFeed (b : UInt8) : ¬ (secondRange b).1 ≤ 0x0a := by
  rw [secondRange]
  split_ifs <;> decide

theorem scan_lineFeed (b : UInt8) (front rest : List UInt8) :
    scan b (front ++ 0x0a :: rest) = scan b front := by
  rw [scan, scan]
  split
  · rfl
  · rfl
  · cases front with
    | nil => simp [not_secondRange_lineFeed]
    | cons c front => simp only [List.cons_append, scanTails_lineFeed]

theorem extra_scan_le (b : UInt8) (bs : List UInt8) : (scan b bs).extra ≤ bs.length := by
  rw [scan]
  split
  · simp
  · simp
  · cases bs with
    | nil => simp
    | cons c bs =>
      simp only [List.length_cons]
      split
      · exact (extra_scanTails_le _ 1 _ bs).trans (Nat.le_of_eq (Nat.add_comm 1 _))
      · simp

theorem decodeLossy_lineFeed (front rest : List UInt8) :
    decodeLossy (front ++ 0x0a :: rest) = decodeLossy front ++ '\n' :: decodeLossy rest := by
  induction front using decodeLossy.induct with
  | case1 =>
    rw [List.nil_append, decodeLossy, decodeLossy, List.nil_append]
    rfl
  | case2 b bs step ih =>
    have hExtra : (scan b bs).extra ≤ bs.length := extra_scan_le b bs
    rw [List.cons_append, decodeLossy, decodeLossy, scan_lineFeed]
    simp only [List.drop_append_of_le_length hExtra, List.cons_append]
    exact congrArg _ ih

/-! ## Where line feeds come from -/

theorem ofNat_ne_lineFeed {n : Nat} (h : n ≠ 10) : Char.ofNat n ≠ '\n' := by
  intro hChar
  by_cases hValid : n.isValidChar
  · rw [Char.ofNat, dif_pos hValid] at hChar
    exact h (congrArg Char.toNat hChar)
  · rw [Char.ofNat, dif_neg hValid] at hChar
    exact absurd hChar (by decide)

theorem char_scanTails_ne (left used : Nat) {value : Nat} (h : 10 < value) (bs : List UInt8) :
    (scanTails left used value bs).char ≠ some '\n' := by
  induction bs generalizing left used value with
  | nil =>
    cases left with
    | zero => simpa [scanTails] using ofNat_ne_lineFeed (by omega)
    | succ left => simp [scanTails]
  | cons b bs ih =>
    cases left with
    | zero => simpa [scanTails] using ofNat_ne_lineFeed (by omega)
    | succ left =>
      rw [scanTails]
      split
      · exact ih left (used + 1) (by omega)
      · simp

/-- The shortest spelling is the only one: the first two bytes of a longer character stand for more
than a line feed. -/
theorem lt_of_tailCount {b c : UInt8} {left : Nat} (hCount : tailCount b = some (left + 1))
    (hLow : (secondRange b).1 ≤ c) (hHigh : c ≤ (secondRange b).2) :
    10 < b.toNat % Nat.pow 2 (5 - left) * 64 + tailBits c := by
  have hAll : ∀ n < 256, ∀ left < 3, tailCount (UInt8.ofNat n) = some (left + 1) →
      n % Nat.pow 2 (5 - left) = 0 → 138 < (secondRange (UInt8.ofNat n)).1.toNat ∧
        (secondRange (UInt8.ofNat n)).2.toNat < 192 := by decide +kernel
  have hLeft : left < 3 := by
    rw [tailCount] at hCount
    split_ifs at hCount <;> simp at hCount <;> omega
  have hRange := hAll b.toNat b.toNat_lt left hLeft
  rw [UInt8.ofNat_toNat] at hRange
  have hLow := UInt8.le_iff_toNat_le.mp hLow
  have hHigh := UInt8.le_iff_toNat_le.mp hHigh
  rw [tailBits]
  by_cases hBits : b.toNat % Nat.pow 2 (5 - left) = 0
  · have hBounds := hRange hCount hBits
    omega
  · omega

theorem char_scan_ne {b : UInt8} (h : b ≠ 0x0a) (bs : List UInt8) :
    (scan b bs).char ≠ some '\n' := by
  rw [scan]
  split
  · simp
  · have hValue : b.toNat ≠ 10 := fun hTen => h (UInt8.toNat.inj hTen)
    simpa using ofNat_ne_lineFeed hValue
  · rename_i left hCount
    cases bs with
    | nil => simp
    | cons c bs =>
      simp only
      split
      · rename_i hSecond
        rw [Bool.and_eq_true, decide_eq_true_eq, decide_eq_true_eq] at hSecond
        exact char_scanTails_ne left 1 (lt_of_tailCount hCount hSecond.1 hSecond.2) bs
      · simp

theorem lineFeed_not_mem_decodeLossy {bs : List UInt8} (h : 0x0a ∉ bs) :
    '\n' ∉ decodeLossy bs := by
  induction bs using decodeLossy.induct with
  | case1 =>
    rw [decodeLossy]
    exact List.not_mem_nil
  | case2 b bs step ih =>
    rw [List.mem_cons, not_or] at h
    have hFirst : step.char.getD '\ufffd' ≠ '\n' := by
      have hChar : step.char ≠ some '\n' := char_scan_ne (Ne.symm h.1) bs
      cases hFound : step.char with
      | none => decide
      | some c =>
        rintro rfl
        exact hChar hFound
    rw [decodeLossy, List.mem_cons, not_or]
    exact ⟨Ne.symm hFirst, ih fun hMem => h.2 (List.mem_of_mem_drop hMem)⟩

theorem decodeLossy_ne_nil {bs : List UInt8} (h : bs ≠ []) : decodeLossy bs ≠ [] := by
  obtain ⟨b, bs, rfl⟩ := List.exists_cons_of_ne_nil h
  rw [decodeLossy]
  exact List.cons_ne_nil _ _

/-! ## Reading line after line -/

section Read

variable {front : List UInt8} (hFront : 0x0a ∉ front) (rest : List UInt8)

include hFront

theorem bne_lineFeed : ∀ b ∈ front, (b != 0x0a) = true := by
  intro b hb
  rw [bne_iff_ne]
  rintro rfl
  exact hFront hb

theorem readLines_lineFeed :
    readLines (front ++ 0x0a :: rest) = streamLine (front ++ [0x0a]) :: readLines rest := by
  have hTaken : taken (front ++ 0x0a :: rest) = front ++ [0x0a] := by
    rw [taken, List.takeWhile_append_of_pos (bne_lineFeed hFront),
      List.dropWhile_append_of_pos (bne_lineFeed hFront)]
    simp
  have hUntaken : untaken (front ++ 0x0a :: rest) = rest := by
    rw [untaken, List.dropWhile_append_of_pos (bne_lineFeed hFront)]
    simp
  rw [readLines, hTaken, hUntaken, if_neg (by simp)]

theorem readLines_last (hSome : front ≠ []) : readLines front = [streamLine front] := by
  have hTaken : taken front = front := by
    rw [taken, List.takeWhile_eq_self_iff.mpr (bne_lineFeed hFront),
      List.dropWhile_eq_nil_iff.mpr (bne_lineFeed hFront), List.take_nil, List.append_nil]
  have hUntaken : untaken front = [] := by
    rw [untaken, List.dropWhile_eq_nil_iff.mpr (bne_lineFeed hFront), List.drop_nil]
  have hNil : readLines [] = [] := by
    rw [readLines]
    rfl
  rw [readLines, hTaken, hUntaken, hNil, if_neg (by simpa using hSome)]

end Read

/-! ## Cutting at line feeds -/

section Cut

variable {α : Type} [BEq α] [LawfulBEq α] {mark : α} {front : List α} (hFront : mark ∉ front)

include hFront

theorem cutAfter_mark (rest : List α) :
    cutAfter mark (front ++ mark :: rest) = (front ++ [mark]) :: cutAfter mark rest := by
  induction front with
  | nil => simp [cutAfter]
  | cons a front ih =>
    rw [List.mem_cons, not_or] at hFront
    have hOther : (a == mark) = false := by simpa using Ne.symm hFront.1
    have hRest := ih hFront.2
    rw [cutAfter] at hRest
    simp only [List.cons_append, cutAfter, List.foldr_cons, hOther, hRest, Bool.false_eq_true,
      if_false]

theorem cutAfter_last (hSome : front ≠ []) : cutAfter mark front = [front] := by
  induction front with
  | nil => exact absurd rfl hSome
  | cons a front ih =>
    rw [List.mem_cons, not_or] at hFront
    have hOther : (a == mark) = false := by simpa using Ne.symm hFront.1
    cases front with
    | nil => simp [cutAfter, hOther]
    | cons b front =>
      have hRest := ih hFront.2 (List.cons_ne_nil _ _)
      rw [cutAfter] at hRest ⊢
      rw [List.foldr_cons, hRest]
      simp [hOther]

end Cut

/-! ## The lines of the whole text -/

/-- The lines of a text: it is split at the line feeds, a last piece without characters is no line,
and the carriage returns at the end of a piece do not belong to the line. -/
def wholeLines (text : List Char) : List String :=
  let pieces := text.splitOn '\n'
  (if pieces.getLast? = some [] then pieces.dropLast else pieces).map fun piece =>
    String.ofList (piece.rdropWhile (· == '\r'))

theorem wholeLines_lineFeed {front : List Char} (hFront : '\n' ∉ front) (rest : List Char) :
    wholeLines (front ++ '\n' :: rest)
      = String.ofList (front.rdropWhile (· == '\r')) :: wholeLines rest := by
  obtain ⟨piece, pieces, hPieces⟩ := List.exists_cons_of_ne_nil (List.splitOn_ne_nil '\n' rest)
  simp only [wholeLines, List.splitOn_append_cons_self_of_not_mem hFront, hPieces,
    List.getLast?_cons_cons, List.dropLast_cons_cons]
  split <;> rfl

theorem wholeLines_last {front : List Char} (hFront : '\n' ∉ front) (hSome : front ≠ []) :
    wholeLines front = [String.ofList (front.rdropWhile (· == '\r'))] := by
  simp [wholeLines, List.splitOn_eq_singleton hFront, hSome]

theorem dropTrailing_isLineEnd {cs : List Char} (h : '\n' ∉ cs) :
    dropTrailing isLineEnd cs = cs.rdropWhile (· == '\r') := by
  induction cs using List.reverseRecOn with
  | nil => rfl
  | append_singleton cs c ih =>
    rw [List.mem_append, not_or, List.mem_singleton] at h
    have hEnd : isLineEnd c = (c == '\r') := by
      have hOther : (c == '\n') = false := by simpa using Ne.symm h.2
      rw [isLineEnd, hOther, Bool.or_false]
    have hRest := ih h.1
    rw [dropTrailing, List.reverse_concat, List.dropWhile_cons, hEnd, List.rdropWhile_concat]
    split
    · exact hRest
    · rw [List.reverse_cons, List.reverse_reverse]

section Line

variable {piece : List UInt8} (hPiece : 0x0a ∉ piece)

include hPiece

theorem streamLine_last : streamLine piece
    = String.ofList ((decodeLossy piece).rdropWhile (· == '\r')) := by
  rw [streamLine, dropTrailing_isLineEnd (lineFeed_not_mem_decodeLossy hPiece)]

theorem streamLine_lineFeed : streamLine (piece ++ [0x0a])
    = String.ofList ((decodeLossy piece).rdropWhile (· == '\r')) := by
  have hNil : decodeLossy [] = [] := by rw [decodeLossy]
  have hDrop : dropTrailing isLineEnd (decodeLossy piece ++ ['\n'])
      = dropTrailing isLineEnd (decodeLossy piece) := by
    rw [dropTrailing, List.reverse_concat, List.dropWhile_cons_of_pos (by decide), dropTrailing]
  rw [streamLine, decodeLossy_lineFeed, hNil, hDrop,
    dropTrailing_isLineEnd (lineFeed_not_mem_decodeLossy hPiece)]

end Line

/-- A stream is empty, or has no line feed, or has a first one. -/
theorem streamInduction {motive : List UInt8 → Prop} (empty : motive [])
    (last : ∀ front, 0x0a ∉ front → front ≠ [] → motive front)
    (line : ∀ front rest, 0x0a ∉ front → motive rest → motive (front ++ 0x0a :: rest))
    (stream : List UInt8) : motive stream := by
  by_cases hFeed : 0x0a ∈ stream
  · obtain ⟨front, rest, hStream, hFront⟩ := List.eq_append_cons_of_mem hFeed
    subst hStream
    exact line front rest hFront (streamInduction empty last line rest)
  · by_cases hEmpty : stream = []
    · exact hEmpty ▸ empty
    · exact last stream hFeed hEmpty
termination_by stream.length
decreasing_by
  subst hStream
  simp only [List.length_append, List.length_cons]
  omega

theorem readLines_eq_streamLines (stream : List UInt8) : readLines stream = streamLines stream := by
  induction stream using streamInduction with
  | empty =>
    rw [readLines]
    rfl
  | last front hFront hSome =>
    rw [readLines_last hFront hSome, streamLines, cutAfter_last hFront hSome]
    rfl
  | line front rest hFront ih =>
    rw [readLines_lineFeed hFront, ih, streamLines, streamLines, cutAfter_mark hFront]
    rfl

theorem readLines_eq_wholeLines (stream : List UInt8) :
    readLines stream = wholeLines (decodeLossy stream) := by
  induction stream using streamInduction with
  | empty =>
    rw [readLines, decodeLossy]
    rfl
  | last front hFront hSome =>
    rw [readLines_last hFront hSome, streamLine_last hFront,
      wholeLines_last (lineFeed_not_mem_decodeLossy hFront) (decodeLossy_ne_nil hSome)]
  | line front rest hFront ih =>
    rw [readLines_lineFeed hFront, ih, streamLine_lineFeed hFront, decodeLossy_lineFeed,
      wholeLines_lineFeed (lineFeed_not_mem_decodeLossy hFront)]

end TranscodingEngines.Text

namespace TranscodingEngines.System

variable (s : System)

/-- What is read of a stream before the deadline: all of it if it is closed by then, otherwise what
stands up to its last line feed. -/
def received (p : s.UnderWay) (deadline : Nat) (sink : Sink) : List UInt8 :=
  if s.closesBefore p sink deadline then s.writtenTo p sink deadline
  else completeLines (s.writtenTo p sink deadline)

/-- The lines of a stream are those of the text that all its bytes together stand for, whether they
are read one after the other or cut out. So the output of a run holds the lines of what was received
of standard output, and then those of standard error. -/
theorem captures_wholeLines :
    (∀ stream : List UInt8, Text.readLines stream = Text.wholeLines (Text.decodeLossy stream) ∧
      Text.streamLines stream = Text.wholeLines (Text.decodeLossy stream)) ∧
    ∀ (s : System) (p : s.UnderWay) (exitCode : Int) (deadline : Nat),
      (s.collected p exitCode deadline).lines
        = Text.wholeLines (Text.decodeLossy (s.received p deadline .out))
          ++ Text.wholeLines (Text.decodeLossy (s.received p deadline .err)) := by
  have hStream : ∀ stream : List UInt8,
      Text.streamLines stream = Text.wholeLines (Text.decodeLossy stream) := by
    intro stream
    rw [← Text.readLines_eq_streamLines, Text.readLines_eq_wholeLines]
  refine ⟨fun stream => ⟨Text.readLines_eq_wholeLines stream, hStream stream⟩, ?_⟩
  intro s p exitCode deadline
  have hSink : ∀ sink, s.collectedLines p sink deadline
      = Text.wholeLines (Text.decodeLossy (s.received p deadline sink)) :=
    fun sink => hStream (s.received p deadline sink)
  rw [← hSink, ← hSink]
  rfl

end TranscodingEngines.System
