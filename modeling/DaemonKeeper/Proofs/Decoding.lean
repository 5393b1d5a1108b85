import DaemonKeeper.Text.Utf8
import Mathlib.Data.List.Basic
import Mathlib.Tactic.SplitIfs
set_option autoImplicit false

/-!
# Reading damaged bytes

The bytes of a character are a well-formed sequence, and every well-formed sequence is the bytes of
a character.  A reader that knows only the shape that a first byte asks for therefore reads each
character from its bytes, and replaces each part that can be no character, as long as such a part
can be, by one U+FFFD.  A byte below 0x80 belongs to no longer sequence: what stands before it and
what stands after it are read apart.
-/

namespace DaemonKeeper.Text

variable {a b low high : UInt8} {n k : Nat} {bs tail rest part : List UInt8} {cs : List Char}

/-! ## Well-formed sequences -/

/-- A byte with six bits of a code point. -/
def Continues (b : UInt8) : Prop := 0x80 ≤ b.toNat ∧ b.toNat < 0xC0

/-- A first byte and those that belong to it, up to three: no more of them than the code point
needs, none for a surrogate and none above the last code point. -/
def WellFormed (b : UInt8) : List UInt8 → Prop
  | [] => b.toNat < 0x80
  | [b₁] => 0xC2 ≤ b.toNat ∧ b.toNat < 0xE0 ∧ Continues b₁
  | [b₁, b₂] =>
    0xE0 ≤ b.toNat ∧ b.toNat < 0xF0 ∧ (b.toNat = 0xE0 → 0xA0 ≤ b₁.toNat) ∧
      (b.toNat = 0xED → b₁.toNat < 0xA0) ∧ Continues b₁ ∧ Continues b₂
  | [b₁, b₂, b₃] =>
    0xF0 ≤ b.toNat ∧ b.toNat < 0xF5 ∧ (b.toNat = 0xF0 → 0x90 ≤ b₁.toNat) ∧
      (b.toNat = 0xF4 → b₁.toNat < 0x90) ∧ Continues b₁ ∧ Continues b₂ ∧ Continues b₃
  | _ => False

/-- The code point of a sequence. -/
def codePoint (b : UInt8) (tail : List UInt8) : Nat :=
  tail.foldl (fun v c => v * 0x40 + c.toNat % 0x40) (leadBits b tail.length)

/-- The bytes of a character are a well-formed sequence for its code point. -/
theorem exists_encodeChar_eq (c : Char) :
    ∃ b tail, encodeChar c = b :: tail ∧ WellFormed b tail ∧ codePoint b tail = c.toNat := by
  have hvalid : c.toNat < 0xD800 ∨ 0xDFFF < c.toNat ∧ c.toNat < 0x110000 := c.valid
  unfold encodeChar
  simp only [Nat.pow_eq, Nat.pow_zero, Nat.div_one, Nat.pow_one]
  split_ifs with hone htwo hthree
  · refine ⟨_, _, rfl, ?_, ?_⟩ <;> simp [WellFormed, codePoint, leadBits] <;> omega
  · refine ⟨_, _, rfl, ?_, ?_⟩ <;> simp [WellFormed, codePoint, leadBits, Continues] <;> omega
  · refine ⟨_, _, rfl, ?_, ?_⟩ <;> simp [WellFormed, codePoint, leadBits, Continues] <;> omega
  · refine ⟨_, _, rfl, ?_, ?_⟩ <;> simp [WellFormed, codePoint, leadBits, Continues] <;> omega

namespace WellFormed

theorem isValidChar (h : WellFormed b tail) : (codePoint b tail).isValidChar := by
  unfold Nat.isValidChar
  match tail, h with
  | [], h => simp [WellFormed, codePoint, leadBits] at h ⊢; omega
  | [b₁], h => simp [WellFormed, codePoint, leadBits, Continues] at h ⊢; omega
  | [b₁, b₂], h => simp [WellFormed, codePoint, leadBits, Continues] at h ⊢; omega
  | [b₁, b₂, b₃], h => simp [WellFormed, codePoint, leadBits, Continues] at h ⊢; omega

/-- A well-formed sequence is the bytes of a character. -/
theorem encodeChar_eq (h : WellFormed b tail) :
    encodeChar (Char.ofNat (codePoint b tail)) = b :: tail := by
  have hvalue : (Char.ofNat (codePoint b tail)).toNat = codePoint b tail := by
    rw [Char.ofNat, dif_pos h.isValidChar]
    rfl
  unfold encodeChar
  simp only [hvalue, Nat.pow_eq, Nat.pow_zero, Nat.div_one, Nat.pow_one]
  match tail, h with
  | [], h =>
    have hv : codePoint b [] = b.toNat := rfl
    rw [if_pos (hv ▸ h), hv, UInt8.ofNat_toNat]
  | [b₁], h =>
    obtain ⟨h₀, h₀', h₁, h₁'⟩ := h
    have hv : codePoint b [b₁] = b.toNat % 0x20 * 0x40 + b₁.toNat % 0x40 := rfl
    rw [if_neg (by omega), if_pos (by omega)]
    simp only [List.cons.injEq, ← UInt8.toNat_inj, UInt8.toNat_ofNat', and_true]
    omega
  | [b₁, b₂], h =>
    obtain ⟨h₀, h₀', hlow, hhigh, ⟨h₁, h₁'⟩, h₂, h₂'⟩ := h
    have hv : codePoint b [b₁, b₂] =
        (b.toNat % 0x10 * 0x40 + b₁.toNat % 0x40) * 0x40 + b₂.toNat % 0x40 := rfl
    rw [if_neg (by omega), if_neg (by omega), if_pos (by omega)]
    simp only [List.cons.injEq, ← UInt8.toNat_inj, UInt8.toNat_ofNat', and_true]
    omega
  | [b₁, b₂, b₃], h =>
    obtain ⟨h₀, h₀', hlow, hhigh, ⟨h₁, h₁'⟩, ⟨h₂, h₂'⟩, h₃, h₃'⟩ := h
    have hv : codePoint b [b₁, b₂, b₃] =
        ((b.toNat % 0x08 * 0x40 + b₁.toNat % 0x40) * 0x40 + b₂.toNat % 0x40) * 0x40 +
          b₃.toNat % 0x40 := rfl
    rw [if_neg (by omega), if_neg (by omega), if_neg (by omega)]
    simp only [List.cons.injEq, ← UInt8.toNat_inj, UInt8.toNat_ofNat', and_true]
    omega

end WellFormed

/-! ## The shape that a first byte asks for -/

theorem leadShape_cases (b : UInt8) :
    b.toNat < 0x80 ∧ leadShape b = some (0, 0x80, 0xBF) ∨
    (0xC2 ≤ b.toNat ∧ b.toNat < 0xE0) ∧ leadShape b = some (1, 0x80, 0xBF) ∨
    (0xE0 ≤ b.toNat ∧ b.toNat < 0xF0) ∧
      leadShape b = some (2, if b.toNat = 0xE0 then 0xA0 else 0x80,
        if b.toNat = 0xED then 0x9F else 0xBF) ∨
    (0xF0 ≤ b.toNat ∧ b.toNat < 0xF5) ∧
      leadShape b = some (3, if b.toNat = 0xF0 then 0x90 else 0x80,
        if b.toNat = 0xF4 then 0x8F else 0xBF) ∨
    (0x80 ≤ b.toNat ∧ b.toNat < 0xC2 ∨ 0xF5 ≤ b.toNat) ∧ leadShape b = none := by
  simp only [leadShape, UInt8.lt_iff_toNat_lt, ← UInt8.toNat_inj, UInt8.reduceToNat]
  split_ifs <;> simp <;> omega

/-- Bytes that may stand behind a first byte, the first of them in its own range. -/
def Trailing (low high : UInt8) : List UInt8 → Prop
  | [] => True
  | b :: rest => (low.toNat ≤ b.toNat ∧ b.toNat ≤ high.toNat) ∧ Trailing 0x80 0xBF rest

/-- How many bytes there are shows in the first one. -/
theorem WellFormed.lead (h : WellFormed b tail) :
    tail.length = 0 ∧ b.toNat < 0x80 ∨ tail.length = 1 ∧ 0xC2 ≤ b.toNat ∧ b.toNat < 0xE0 ∨
      tail.length = 2 ∧ 0xE0 ≤ b.toNat ∧ b.toNat < 0xF0 ∨
      tail.length = 3 ∧ 0xF0 ≤ b.toNat ∧ b.toNat < 0xF5 := by
  match tail, h with
  | [], h => exact .inl ⟨rfl, h⟩
  | [b₁], ⟨h, h', _⟩ => exact .inr (.inl ⟨rfl, h, h'⟩)
  | [b₁, b₂], ⟨h, h', _⟩ => exact .inr (.inr (.inl ⟨rfl, h, h'⟩))
  | [b₁, b₂, b₃], ⟨h, h', _⟩ => exact .inr (.inr (.inr ⟨rfl, h, h'⟩))

theorem WellFormed.exists_leadShape (h : WellFormed b tail) :
    ∃ low high, leadShape b = some (tail.length, low, high) := by
  have hlead := h.lead
  rcases leadShape_cases b with ⟨hb, h'⟩ | ⟨hb, h'⟩ | ⟨hb, h'⟩ | ⟨hb, h'⟩ | ⟨hb, h'⟩
  · obtain hlen : tail.length = 0 := by omega
    exact ⟨_, _, hlen ▸ h'⟩
  · obtain hlen : tail.length = 1 := by omega
    exact ⟨_, _, hlen ▸ h'⟩
  · obtain hlen : tail.length = 2 := by omega
    exact ⟨_, _, hlen ▸ h'⟩
  · obtain hlen : tail.length = 3 := by omega
    exact ⟨_, _, hlen ▸ h'⟩
  · omega

/-- As many bytes as the first one asks for make a well-formed sequence with it if they continue. -/
theorem wellFormed_iff (h : leadShape b = some (tail.length, low, high)) :
    WellFormed b tail ↔ Trailing low high tail := by
  rcases leadShape_cases b with ⟨hb, h'⟩ | ⟨hb, h'⟩ | ⟨hb, h'⟩ | ⟨hb, h'⟩ | ⟨-, h'⟩ <;>
    rw [h] at h' <;> simp only [Option.some.injEq, Prod.mk.injEq, reduceCtorEq] at h' <;>
    obtain ⟨hlen, rfl, rfl⟩ := h'
  · obtain rfl := List.length_eq_zero_iff.mp hlen
    simp [WellFormed, Trailing, hb]
  · obtain ⟨b₁, rfl⟩ := List.length_eq_one_iff.mp hlen
    simp [WellFormed, Trailing, Continues, hb]
    omega
  · obtain ⟨b₁, b₂, rfl⟩ := List.length_eq_two.mp hlen
    simp [WellFormed, Trailing, Continues, hb]
    split_ifs <;> simp <;> omega
  · obtain ⟨b₁, b₂, b₃, rfl⟩ := List.length_eq_three.mp hlen
    simp [WellFormed, Trailing, Continues, hb]
    split_ifs <;> simp <;> omega

/-! ## Counting continuations -/

/-- What continues a sequence continues it up to any point. -/
theorem Trailing.left (h : Trailing low high (tail ++ rest)) : Trailing low high tail := by
  induction tail generalizing low high with
  | nil => trivial
  | cons b tail ih => exact ⟨h.1, ih h.2⟩

/-- What continues a sequence can be continued to any length. -/
theorem Trailing.exists_append (h : Trailing low high tail) (hrange : low.toNat ≤ high.toNat)
    (hlen : tail.length ≤ n) :
    ∃ more, (tail ++ more).length = n ∧ Trailing low high (tail ++ more) := by
  induction tail generalizing low high n with
  | nil =>
    cases n with
    | zero => exact ⟨[], rfl, trivial⟩
    | succ n =>
      refine ⟨low :: List.replicate n 0x80, by simp, ⟨Nat.le_refl _, hrange⟩, ?_⟩
      induction n with
      | zero => trivial
      | succ n ih => exact ⟨by decide, ih (Nat.zero_le _)⟩
  | cons b tail ih =>
    cases n with
    | zero => simp at hlen
    | succ n =>
      obtain ⟨more, hmore, htrailing⟩ := ih h.2 (by decide) (Nat.le_of_succ_le_succ hlen)
      exact ⟨more, by simpa using hmore, h.1, htrailing⟩

/-- The count is the greatest number of bytes that continue the sequence. -/
theorem le_continuationCount_iff : k ≤ continuationCount low high n tail ↔
    k ≤ n ∧ k ≤ tail.length ∧ Trailing low high (tail.take k) := by
  induction tail generalizing low high n k with
  | nil => cases n <;> simp +contextual [continuationCount, Trailing]
  | cons b tail ih =>
    cases n with
    | zero => simp +contextual [continuationCount, Trailing]
    | succ n =>
      cases k with
      | zero => simp [Trailing]
      | succ k =>
        simp only [continuationCount, UInt8.le_iff_toNat_le, Bool.and_eq_true, decide_eq_true_eq]
        split_ifs with hb
        · simp [Trailing, ih, hb]
        · simp [Trailing, hb]

theorem continuationCount_le_length : continuationCount low high n tail ≤ tail.length :=
  (le_continuationCount_iff.mp (Nat.le_refl _)).2.1

/-- An ASCII byte continues nothing. -/
theorem continuationCount_append_ascii (ha : a.toNat < 0x80) (hlow : 0x80 ≤ low.toNat) :
    continuationCount low high n (tail ++ a :: rest) = continuationCount low high n tail := by
  induction tail generalizing n low high with
  | nil =>
    have hout : ¬ low.toNat ≤ a.toNat := by omega
    cases n <;> simp [continuationCount, UInt8.le_iff_toNat_le, hout]
  | cons b tail ih =>
    cases n with
    | zero => simp [continuationCount]
    | succ n =>
      have hrest : continuationCount 0x80 0xBF n (tail ++ a :: rest) =
          continuationCount 0x80 0xBF n tail := ih (by decide)
      simp only [List.cons_append, continuationCount, hrest]

/-! ## The character at the front -/

theorem range_of_leadShape (h : leadShape b = some (n, low, high)) :
    0x80 ≤ low.toNat ∧ low.toNat ≤ high.toNat := by
  rcases leadShape_cases b with ⟨hb, h'⟩ | ⟨hb, h'⟩ | ⟨hb, h'⟩ | ⟨hb, h'⟩ | ⟨hb, h'⟩ <;>
    rw [h] at h' <;> simp only [Option.some.injEq, Prod.mk.injEq, reduceCtorEq] at h' <;>
    obtain ⟨-, rfl, rfl⟩ := h'
  · decide
  · decide
  · split_ifs <;> simp
    omega
  · split_ifs <;> simp
    omega

/-- A well-formed sequence is read as its character, whatever follows it. -/
theorem frontChar_append (h : WellFormed b tail) :
    frontChar b (tail ++ rest) = (some (Char.ofNat (codePoint b tail)), tail.length) := by
  obtain ⟨low, high, hshape⟩ := h.exists_leadShape
  have hcount : continuationCount low high tail.length (tail ++ rest) = tail.length := by
    refine Nat.le_antisymm (le_continuationCount_iff.mp (Nat.le_refl _)).1
      (le_continuationCount_iff.mpr ⟨Nat.le_refl _, by simp, ?_⟩)
    rw [List.take_left]
    exact (wellFormed_iff hshape).mp h
  simp only [frontChar, hshape, hcount, if_true, List.take_left, codePoint]

/-- A part at the front of some bytes that can be no character: no character can be read there, and
the part is the longest one with which a character could begin, or else a single byte. -/
structure Damaged (part rest : List UInt8) : Prop where
  ne_nil : part ≠ []
  unreadable : ∀ c, ¬ encodeChar c <+: part ++ rest
  begun : part.length = 1 ∨ ∃ c, part <+: encodeChar c
  longest : ∀ c longer, longer <+: part ++ rest → longer <+: encodeChar c →
    longer.length ≤ part.length

namespace Damaged

variable {part' rest' : List UInt8}

theorem length_le (h : Damaged part rest) (h' : Damaged part' rest')
    (heq : part ++ rest = part' ++ rest') : part.length ≤ part'.length := by
  rcases h.begun with hone | ⟨c, hc⟩
  · rw [hone]
    exact List.length_pos_iff.mpr h'.ne_nil
  · exact h'.longest c part (heq ▸ List.prefix_append part rest) hc

/-- Where a damaged part ends is told by the bytes. -/
theorem unique (h : Damaged part rest) (h' : Damaged part' rest')
    (heq : part ++ rest = part' ++ rest') : part = part' ∧ rest = rest' :=
  List.append_inj heq (Nat.le_antisymm (h.length_le h' heq) (h'.length_le h heq.symm))

end Damaged

/-- What begins the bytes of a character begins a well-formed sequence. -/
theorem exists_wellFormed_of_leads {c : Char} (h : b :: part <+: encodeChar c) :
    ∃ tail, encodeChar c = b :: tail ∧ WellFormed b tail ∧ part <+: tail := by
  obtain ⟨b', tail, hbytes, hwell, -⟩ := exists_encodeChar_eq c
  rw [hbytes, List.cons_prefix_cons] at h
  obtain ⟨rfl, hleads⟩ := h
  exact ⟨tail, hbytes, hwell, hleads⟩

/-- No character begins with more bytes than the first one and those that were counted. -/
theorem length_le_of_leads {c : Char} (hshape : leadShape b = some (n, low, high))
    (hrest : part <+: rest) (hc : b :: part <+: encodeChar c) :
    part.length ≤ continuationCount low high n rest := by
  obtain ⟨tail, -, hwell, more, rfl⟩ := exists_wellFormed_of_leads hc
  obtain ⟨low', high', hshape'⟩ := hwell.exists_leadShape
  obtain ⟨hn, rfl, rfl⟩ : n = (part ++ more).length ∧ low = low' ∧ high = high' := by
    simpa [hshape] using hshape'
  refine le_continuationCount_iff.mpr ⟨by simp [hn], hrest.length_le, ?_⟩
  rw [← List.prefix_iff_eq_take.mp hrest]
  exact ((wellFormed_iff hshape').mp hwell).left

/-- If the first byte leads nothing, it is damaged alone. -/
theorem damaged_singleton (hshape : leadShape b = none) : Damaged [b] rest := by
  have hnone : ∀ c part, ¬ b :: part <+: encodeChar c := by
    intro c part hc
    obtain ⟨tail, -, hwell, -⟩ := exists_wellFormed_of_leads hc
    obtain ⟨low, high, hsome⟩ := hwell.exists_leadShape
    simp [hshape] at hsome
  refine ⟨List.cons_ne_nil _ _, fun c hc => ?_, .inl rfl, fun c longer hlonger hc => ?_⟩
  · obtain ⟨b', tail, hbytes, -⟩ := exists_encodeChar_eq c
    rw [hbytes, List.singleton_append, List.cons_prefix_cons] at hc
    exact hnone c tail (hc.1 ▸ hbytes ▸ List.prefix_rfl)
  · cases longer with
    | nil => simp
    | cons x part =>
      rw [List.singleton_append, List.cons_prefix_cons] at hlonger
      obtain ⟨rfl, -⟩ := hlonger
      exact absurd hc (hnone c part)

/-- If the first byte has fewer continuations than it asks for, it is damaged together with them. -/
theorem damaged_take (hshape : leadShape b = some (n, low, high))
    (hless : continuationCount low high n rest < n) :
    Damaged (b :: rest.take (continuationCount low high n rest))
      (rest.drop (continuationCount low high n rest)) := by
  obtain ⟨-, hlen, htrailing⟩ :=
    le_continuationCount_iff.mp (Nat.le_refl (continuationCount low high n rest))
  have hlength : (rest.take (continuationCount low high n rest)).length =
      continuationCount low high n rest := List.length_take_of_le hlen
  have hsplit : b :: rest.take (continuationCount low high n rest) ++
      rest.drop (continuationCount low high n rest) = b :: rest := by simp
  refine ⟨List.cons_ne_nil _ _, fun c hc => ?_, .inr ?_, fun c longer hlonger hc => ?_⟩
  · -- A whole character would have more bytes than were counted.
    obtain ⟨b', tail, hbytes, hwell, -⟩ := exists_encodeChar_eq c
    rw [hsplit, hbytes, List.cons_prefix_cons] at hc
    obtain ⟨rfl, htail⟩ := hc
    obtain ⟨low', high', hshape'⟩ := hwell.exists_leadShape
    have hn : n = tail.length := by simp [hshape] at hshape'; exact hshape'.1
    have hself : b' :: tail <+: encodeChar c := hbytes ▸ List.prefix_rfl
    have hle := length_le_of_leads hshape htail hself
    omega
  · obtain ⟨more, hmore, hwhole⟩ := htrailing.exists_append (range_of_leadShape hshape).2
      (hlength ▸ Nat.le_of_lt hless)
    refine ⟨_, more, (WellFormed.encodeChar_eq ?_).symm⟩
    rw [← hmore] at hshape
    exact (wellFormed_iff hshape).mpr hwhole
  · rw [List.length_cons, hlength]
    cases longer with
    | nil => simp
    | cons x part =>
      rw [hsplit, List.cons_prefix_cons] at hlonger
      obtain ⟨rfl, hpart⟩ := hlonger
      exact Nat.succ_le_succ (length_le_of_leads hshape hpart hc)

/-- At the front there is a character or a damaged part. -/
theorem frontChar_cases (b : UInt8) (rest : List UInt8) :
    (frontChar b rest).2 ≤ rest.length ∧
    ((∃ c, (frontChar b rest).1 = some c ∧ encodeChar c = b :: rest.take (frontChar b rest).2) ∨
      (frontChar b rest).1 = none ∧
        Damaged (b :: rest.take (frontChar b rest).2) (rest.drop (frontChar b rest).2)) := by
  unfold frontChar
  cases hshape : leadShape b with
  | none => exact ⟨Nat.zero_le _, .inr ⟨rfl, damaged_singleton hshape⟩⟩
  | some shape =>
    obtain ⟨n, low, high⟩ := shape
    dsimp only
    split_ifs with hall
    · obtain ⟨-, hlen, htrailing⟩ := le_continuationCount_iff.mp (Nat.le_of_eq hall.symm)
      have hlength : (rest.take n).length = n := List.length_take_of_le hlen
      have hwell : WellFormed b (rest.take n) :=
        (wellFormed_iff (hlength.symm ▸ hshape)).mpr htrailing
      have hbytes := hwell.encodeChar_eq
      unfold codePoint at hbytes
      rw [hlength] at hbytes
      exact ⟨hlen, .inl ⟨_, rfl, hbytes⟩⟩
    · have hle := le_continuationCount_iff.mp (Nat.le_refl (continuationCount low high n rest))
      exact ⟨hle.2.1, .inr ⟨rfl, damaged_take hshape (Nat.lt_of_le_of_ne hle.1 hall)⟩⟩

/-! ## All characters -/

/-- What is read from bytes: the character wherever there is one, and U+FFFD for each damaged part. -/
inductive Decoded : List UInt8 → List Char → Prop
  | nil : Decoded [] []
  | char (c : Char) {rest : List UInt8} {cs : List Char} :
    Decoded rest cs → Decoded (encodeChar c ++ rest) (c :: cs)
  | damaged {part rest : List UInt8} {cs : List Char} :
    Damaged part rest → Decoded rest cs → Decoded (part ++ rest) (replacement :: cs)

theorem decoded_decodeLossy (bs : List UInt8) : Decoded bs (decodeLossy bs) := by
  induction bs using decodeLossy.induct with
  | case1 => simpa [decodeLossy] using Decoded.nil
  | case2 b rest front ih =>
    have hsplit : b :: rest = b :: rest.take front.2 ++ rest.drop front.2 := by simp
    rw [decodeLossy, hsplit]
    rcases (frontChar_cases b rest).2 with ⟨c, hc, hbytes⟩ | ⟨hnone, hdamaged⟩
    · rw [hc, ← hbytes]
      exact .char c ih
    · rw [hnone]
      exact .damaged hdamaged ih

/-- A character is read from its bytes, and what follows them is read apart. -/
theorem decodeLossy_encodeChar_append (c : Char) (rest : List UInt8) :
    decodeLossy (encodeChar c ++ rest) = c :: decodeLossy rest := by
  obtain ⟨b, tail, hbytes, hwell, hvalue⟩ := exists_encodeChar_eq c
  rw [hbytes, List.cons_append, decodeLossy, frontChar_append hwell, hvalue, Char.ofNat_toNat,
    List.drop_left]
  rfl

theorem decodeLossy_damaged_append (h : Damaged part rest) :
    decodeLossy (part ++ rest) = replacement :: decodeLossy rest := by
  obtain ⟨b, more, rfl⟩ := List.exists_cons_of_ne_nil h.ne_nil
  obtain ⟨hlen, ⟨c, -, hbytes⟩ | ⟨hnone, hdamaged⟩⟩ := frontChar_cases b (more ++ rest)
  · refine absurd ?_ (h.unreadable c)
    rw [hbytes, List.cons_append, List.cons_prefix_cons]
    exact ⟨rfl, List.take_prefix _ _⟩
  · obtain ⟨-, hrest⟩ := hdamaged.unique h (by simp)
    rw [List.cons_append, decodeLossy, hnone, hrest]
    rfl

/-- Reading gives each character, and one U+FFFD for each damaged part. -/
theorem decodeLossy_eq_iff : decodeLossy bs = cs ↔ Decoded bs cs := by
  constructor
  · rintro rfl
    exact decoded_decodeLossy bs
  · intro h
    induction h with
    | nil => simp [decodeLossy]
    | char c h ih => rw [decodeLossy_encodeChar_append, ih]
    | damaged hdamaged h ih => rw [decodeLossy_damaged_append hdamaged, ih]

/-- What was encoded is read back. -/
theorem decodeLossy_encode (cs : List Char) : decodeLossy (encode cs) = cs := by
  induction cs with
  | nil => simp [encode, decodeLossy]
  | cons c cs ih => simpa [encode, decodeLossy_encodeChar_append] using ih

/-! ## Bytes below 0x80 -/

theorem frontChar_append_ascii (ha : a.toNat < 0x80) :
    frontChar b (tail ++ a :: rest) = frontChar b tail := by
  unfold frontChar
  cases h : leadShape b with
  | none => simp
  | some shape =>
    obtain ⟨n, low, high⟩ := shape
    simp only [continuationCount_append_ascii ha (range_of_leadShape h).1]
    split_ifs with hall
    · rw [List.take_append_of_le_length (hall ▸ continuationCount_le_length)]
    · simp

/-- An ASCII byte is a character of its own wherever it stands: what stands before it and what
stands after it are read apart. -/
theorem decodeLossy_append_ascii (ha : a.toNat < 0x80) (bs : List UInt8) :
    decodeLossy (bs ++ a :: rest) = decodeLossy bs ++ Char.ofNat a.toNat :: decodeLossy rest := by
  induction bs using decodeLossy.induct with
  | case1 =>
    have ha' : a < 0x80 := UInt8.lt_iff_toNat_lt.mpr ha
    simp [decodeLossy, frontChar, leadShape, ha', continuationCount, leadBits]
  | case2 b tail front ih =>
    rw [List.cons_append, decodeLossy, decodeLossy, frontChar_append_ascii ha,
      List.drop_append_of_le_length (frontChar_cases b tail).1, ih, List.cons_append]

/-- Bytes have a line feed where the text that is read from them has one. -/
theorem feed_mem_iff (bs : List UInt8) : 10 ∈ bs ↔ '\n' ∈ decodeLossy bs := by
  constructor
  · intro h
    obtain ⟨front, rest, rfl⟩ := List.append_of_mem h
    simp [decodeLossy_append_ascii (a := 10) (by decide)]
  · generalize hcs : decodeLossy bs = cs
    intro h
    rw [decodeLossy_eq_iff] at hcs
    induction hcs with
    | nil => cases h
    | char c _ ih =>
      rcases List.mem_cons.mp h with rfl | h
      · exact List.mem_append_left _ (by decide)
      · exact List.mem_append_right _ (ih h)
    | damaged _ _ ih =>
      rcases List.mem_cons.mp h with h | h
      · exact absurd h (by decide)
      · exact List.mem_append_right _ (ih h)

/-! ## The bytes of a string -/

/-- A character is encoded here as it is in strings. -/
theorem encodeChar_eq_utf8EncodeChar (c : Char) : encodeChar c = String.utf8EncodeChar c := by
  have hmax : c.toNat < 0x110000 := c.valid.elim (Nat.lt_trans · (by decide)) And.right
  have hval : c.val.toNat = c.toNat := rfl
  have hone : c.toNat ≤ 0x7F ↔ c.toNat < 0x80 := Nat.lt_succ_iff.symm
  have htwo : c.toNat ≤ 0x7FF ↔ c.toNat < 0x800 := Nat.lt_succ_iff.symm
  have hthree : c.toNat ≤ 0xFFFF ↔ c.toNat < 0x10000 := Nat.lt_succ_iff.symm
  unfold encodeChar String.utf8EncodeChar
  simp only [hval, hone, htwo, hthree, Nat.pow_eq, Nat.pow_zero, Nat.div_one, Nat.pow_one,
    Nat.reducePow, Nat.add_comm 0x80]
  split_ifs with h₁ h₂ h₃
  · rfl
  · rw [Nat.add_comm, Nat.mod_eq_of_lt (a := c.toNat / 0x40) (by omega)]
  · rw [Nat.add_comm, Nat.mod_eq_of_lt (a := c.toNat / 0x1000) (by omega)]
  · rw [Nat.add_comm, Nat.mod_eq_of_lt (a := c.toNat / 0x40000) (by omega)]

theorem encode_eq_toUTF8 (s : String) : encode s.toList = s.toUTF8.data.toList := by
  rw [encode, funext encodeChar_eq_utf8EncodeChar, String.toUTF8_eq_toByteArray,
    ← String.utf8Encode_toList, List.utf8Encode, List.data_toByteArray]

end DaemonKeeper.Text
