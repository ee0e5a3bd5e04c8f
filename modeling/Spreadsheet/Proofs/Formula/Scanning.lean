import Mathlib.Data.List.Range
import Spreadsheet.Proofs.Formula.Blanks

/-!
# Scanning makes progress and stops for good

Tokens are asked for one after the other, also behind the end of the stream. Each of them leaves an
end of the text, and each but the end of the stream takes something of it. Counted in the bytes of
UTF-8 the position therefore moves forward from one character to another; where a jump is counted in
bytes, over a lost reference, it is as long as the characters it jumps over. The end of the stream
leaves nothing, so the same end is handed out from then on.

The stream of a text is what is handed out up to the first end, and it has no more tokens in front
of this end than the text has characters.
-/

namespace Spreadsheet

/-- The number of bytes of a text in UTF-8. -/
def Text.byteSize (cs : List Char) : Nat :=
  (String.ofList cs).utf8ByteSize

@[simp] theorem Text.byteSize_nil : Text.byteSize [] = 0 := rfl

@[simp] theorem Text.byteSize_append (cs ds : List Char) :
    Text.byteSize (cs ++ ds) = Text.byteSize cs + Text.byteSize ds := by
  simp [Text.byteSize, String.ofList_append]

@[simp] theorem Text.byteSize_cons (c : Char) (cs : List Char) :
    Text.byteSize (c :: cs) = c.utf8Size + Text.byteSize cs := by
  rw [← List.singleton_append, Text.byteSize_append]
  congr 1
  rw [Text.byteSize, ← String.singleton_eq_ofList, String.utf8ByteSize_singleton]

theorem Text.byteSize_pos {cs : List Char} (h : cs ≠ []) : 0 < Text.byteSize cs := by
  refine Nat.pos_of_ne_zero fun zero => h ?_
  simpa [Text.byteSize] using zero

/-- Characters of ASCII are bytes. -/
theorem Text.byteSize_of_ascii {cs : List Char} (h : ∀ c ∈ cs, c.toNat < 128) :
    Text.byteSize cs = cs.length := by
  induction cs with
  | nil => rfl
  | cons c cs ih =>
      have small : c.utf8Size = 1 := by
        rw [Char.utf8Size_eq_one_iff, UInt32.le_iff_toNat_le]
        exact Nat.le_of_lt_succ (h c List.mem_cons_self)
      have rest : Text.byteSize cs = cs.length := ih fun d hd => h d (List.mem_cons_of_mem c hd)
      rw [Text.byteSize_cons, small, rest, List.length_cons, Nat.add_comm]

/-- Whether a text is a decimal without sign and exponent: digits, with a point behind them, among
them or in front of them, and at least one digit in all. -/
def Decimal.IsPlain (l : List Char) : Prop :=
  ∃ whole fraction : List Char, (∀ c ∈ whole, c.isDigit) ∧ (∀ c ∈ fraction, c.isDigit) ∧
    (l = whole ∧ whole ≠ [] ∨ l = whole ++ '.' :: fraction ∧ (whole ≠ [] ∨ fraction ≠ []))

namespace Token

variable {c : Char} {t : Token} {cs rest : List Char} {x : Float}

/-! ### The end of the stream -/

theorem scanText_of_isEnd (h : (scanText cs).1.isEnd) : (scanText cs).2 = [] := by
  unfold scanText at h ⊢
  split at h
  · cases h
  · rfl

theorem scanLost_of_isEnd (h : (scanLost cs).1.isEnd) : (scanLost cs).2 = [] := by
  unfold scanLost at h ⊢
  split at h
  · split at h
    · cases h
    · next other => rw [if_neg other]
  · rfl

theorem scan_of_isEnd (h : (scan c cs).1.isEnd) : (scan c cs).2 = [] := by
  revert h
  apply scan_cases (motive := fun found => found.1.isEnd → found.2 = [])
  case single => exact fun t single ends => by simp [isEnd_single single] at ends
  case less => exact fun _ ends => by simp [isEnd_scanLess] at ends
  case greater => exact fun _ ends => by simp [isEnd_scanGreater] at ends
  case text => exact fun _ => scanText_of_isEnd
  case number => exact fun _ ends => by simp [isEnd_scanNumber] at ends
  case name => exact fun _ ends => by simp [isEnd_scanName] at ends
  case lost => exact fun _ => scanLost_of_isEnd
  case stray => exact fun _ => rfl

/-- The end of the stream leaves nothing of the text. -/
theorem next_of_isEnd (h : (Token.next cs).1.isEnd) : (Token.next cs).2 = [] := by
  unfold Token.next at h ⊢
  split
  · rfl
  · next start => exact scan_of_isEnd (by simpa [start] using h)

/-! ### Numbers and lost references -/

/-- Whether a token is a number or a lost reference, which are cut out of the text by a count. -/
def isCounted : Token → Bool
  | number _ => true
  | lost => true
  | _ => false

theorem isCounted_single (h : single? c = some t) : t.isCounted = false := by
  unfold single? at h
  split at h <;> cases h <;> rfl

theorem isCounted_scanLess (cs : List Char) : (scanLess cs).1.isCounted = false := by
  unfold scanLess
  split <;> rfl

theorem isCounted_scanGreater (cs : List Char) : (scanGreater cs).1.isCounted = false := by
  unfold scanGreater
  split <;> rfl

theorem isCounted_scanText (cs : List Char) : (scanText cs).1.isCounted = false := by
  unfold scanText
  split <;> rfl

theorem isCounted_scanName (cs : List Char) : (scanName cs).1.isCounted = false := by
  unfold scanName ofLetters
  dsimp only
  split
  · split
    · rfl
    split
    · rfl
    split <;> rfl
  · rfl

/-- Numbers and lost references have scanners of their own. -/
theorem scan_of_isCounted (h : (scan c cs).1.isCounted) :
    (startsNumber c cs ∧ scan c cs = scanNumber (c :: cs)) ∨
      (c = '#' ∧ scan c cs = scanLost cs) := by
  revert h
  apply scan_cases (motive := fun found => found.1.isCounted →
    (startsNumber c cs ∧ found = scanNumber (c :: cs)) ∨ (c = '#' ∧ found = scanLost cs))
  case number => exact fun begins _ => .inl ⟨begins, rfl⟩
  case lost => exact fun sign _ => .inr ⟨sign, rfl⟩
  case single => exact fun t single counted => by simp [isCounted_single single] at counted
  case less => exact fun _ counted => by simp [isCounted_scanLess] at counted
  case greater => exact fun _ counted => by simp [isCounted_scanGreater] at counted
  case text => exact fun _ counted => by simp [isCounted_scanText] at counted
  case name => exact fun _ counted => by simp [isCounted_scanName] at counted
  case stray => exact fun counted => by cases counted

theorem scanLost_ne_number (cs : List Char) (x : Float) : (scanLost cs).1 ≠ .number x := by
  unfold scanLost
  split
  · split <;> simp
  · simp

theorem scanNumber_ne_lost (cs : List Char) : (scanNumber cs).1 ≠ .lost := by
  unfold scanNumber
  dsimp only
  split <;> simp

/-- A plain decimal is read with the value of its digits. -/
theorem unsigned?_fraction {whole fraction : List Char} (digits : ∀ c ∈ whole, c.isDigit)
    (digits' : ∀ c ∈ fraction, c.isDigit) (nonempty : whole ≠ [] ∨ fraction ≠ []) :
    Decimal.unsigned? (whole ++ '.' :: fraction) = some (Decimal.ofDigits whole fraction 0) := by
  have point : ∀ c ∈ ('.' :: fraction).head?, ¬ c.isDigit := by simp
  obtain ⟨taken, dropped⟩ := Text.span_append digits point
  have ends : ∀ c ∈ ([] : List Char).head?, ¬ c.isDigit := by simp
  obtain ⟨taken', dropped'⟩ := Text.span_append digits' ends
  rw [List.append_nil] at taken' dropped'
  have some : (whole.isEmpty && fraction.isEmpty) = false := by
    rcases nonempty with nonempty | nonempty <;> simp [nonempty]
  simp only [Decimal.unsigned?, taken, dropped, taken', dropped', some]
  rfl

theorem unsigned?_whole {whole : List Char} (digits : ∀ c ∈ whole, c.isDigit)
    (nonempty : whole ≠ []) :
    Decimal.unsigned? whole = some (Decimal.ofDigits whole [] 0) := by
  have ends : ∀ c ∈ ([] : List Char).head?, ¬ c.isDigit := by simp
  obtain ⟨taken, dropped⟩ := Text.span_append digits ends
  rw [List.append_nil] at taken dropped
  have some : (whole.isEmpty && ([] : List Char).isEmpty) = false := by simp [nonempty]
  simp only [Decimal.unsigned?, taken, dropped, some]
  rfl

/-- The characters of a number are a plain decimal, and are read as one with the same value. -/
theorem scanNumber_eq (begins : startsNumber c cs) (h : scanNumber (c :: cs) = (.number x, rest)) :
    ∃ l, c :: cs = l ++ rest ∧ Decimal.IsPlain l ∧ Decimal.unsigned? l = some x := by
  obtain ⟨-, whole, digits, ⟨fraction, digits', nonempty, text, same⟩ |
    ⟨nonempty, -, text, same⟩⟩ := scanNumber_cases begins h
  · cases same
    exact ⟨_, text, ⟨whole, fraction, digits, digits', .inr ⟨rfl, nonempty⟩⟩,
      unsigned?_fraction digits digits' nonempty⟩
  · cases same
    exact ⟨whole, text, ⟨whole, [], digits, by simp, .inl ⟨rfl, nonempty⟩⟩,
      unsigned?_whole digits nonempty⟩

/-- A lost reference has five characters, which are five bytes. -/
theorem scanLost_eq (h : scanLost cs = (.lost, rest)) :
    ∃ l, '#' :: cs = l ++ rest ∧ Text.byteSize l = 5 := by
  unfold scanLost at h
  split at h
  · next a b c d behind =>
      split at h
      · next isRef =>
          cases h
          obtain ⟨letters, rfl⟩ := lost_letters isRef
          refine ⟨['#', a, b, c, '!'], rfl, Text.byteSize_of_ascii fun x hx => ?_⟩
          rcases List.mem_cons.mp hx with rfl | hx
          · decide
          rcases List.mem_append.mp (show x ∈ [a, b, c] ++ ['!'] from hx) with hx | hx
          · have alpha := letters x hx
            rw [Text.isAlpha_iff] at alpha
            omega
          · rw [List.mem_singleton.mp hx]
            decide
      · cases h
  · cases h

end Token

namespace Formula

variable {cs : List Char} {n m : Nat}

/-! ### Asking for tokens -/

/-- What is left of a text after so many tokens have been asked for. -/
def restAfter (cs : List Char) : Nat → List Char
  | 0 => cs
  | n + 1 => (Token.next (restAfter cs n)).2

/-- The token that is handed out after so many others. -/
def tokenAfter (cs : List Char) (n : Nat) : Token :=
  (Token.next (restAfter cs n)).1

/-- The position behind so many tokens, in bytes from the start of the text. -/
def position (cs : List Char) (n : Nat) : String.Pos.Raw :=
  ⟨Text.byteSize cs - Text.byteSize (restAfter cs n)⟩

/-- Whether the token that is handed out after so many others is made of the characters `l`, which
stand behind blanks and in front of what it leaves. -/
def Takes (cs : List Char) (n : Nat) (l : List Char) : Prop :=
  ∃ front, (∀ c ∈ front, Text.isBlank c) ∧
    restAfter cs n = front ++ (l ++ restAfter cs (n + 1))

theorem next_restAfter (cs : List Char) (n : Nat) :
    Token.next (restAfter cs n) = (tokenAfter cs n, restAfter cs (n + 1)) :=
  rfl

theorem restAfter_succ (cs : List Char) (n : Nat) :
    restAfter cs (n + 1) = restAfter (restAfter cs 1) n := by
  induction n with
  | zero => rfl
  | succ n ih =>
      rw [restAfter, ih]
      rfl

theorem tokenAfter_succ (cs : List Char) (n : Nat) :
    tokenAfter cs (n + 1) = tokenAfter (restAfter cs 1) n := by
  rw [tokenAfter, restAfter_succ, tokenAfter]

theorem restAfter_succ_suffix (cs : List Char) (n : Nat) :
    restAfter cs (n + 1) <:+ restAfter cs n :=
  Token.next_suffix _

theorem restAfter_suffix (cs : List Char) (n : Nat) : restAfter cs n <:+ cs := by
  induction n with
  | zero => exact List.suffix_refl cs
  | succ n ih => exact (restAfter_succ_suffix cs n).trans ih

theorem length_restAfter_lt (live : (tokenAfter cs n).isEnd = false) :
    (restAfter cs (n + 1)).length < (restAfter cs n).length := by
  refine Token.next_length_lt _ fun ends => ?_
  rw [tokenAfter, ends] at live
  cases live

/-! ### Positions -/

theorem byteSize_le_of_suffix {cs ds : List Char} (h : cs <:+ ds) :
    Text.byteSize cs ≤ Text.byteSize ds := by
  obtain ⟨front, rfl⟩ := h
  rw [Text.byteSize_append]
  exact Nat.le_add_left _ _

/-- A position is the end of what stands in front of it. -/
theorem position_eq {front : List Char} (h : front ++ restAfter cs n = cs) :
    position cs n = (String.ofList front).rawEndPos := by
  have whole : Text.byteSize cs = Text.byteSize front + Text.byteSize (restAfter cs n) := by
    rw [← Text.byteSize_append, h]
  have size : (position cs n).byteIdx = Text.byteSize front := by
    show Text.byteSize cs - Text.byteSize (restAfter cs n) = _
    omega
  exact String.Pos.Raw.ext size

theorem position_isValid (cs : List Char) (n : Nat) :
    (position cs n).IsValid (String.ofList cs) := by
  obtain ⟨front, whole⟩ := restAfter_suffix cs n
  rw [String.Pos.Raw.isValid_iff_exists_append]
  refine ⟨String.ofList front, String.ofList (restAfter cs n), ?_, position_eq whole⟩
  rw [← String.ofList_append, whole]

theorem position_le_succ (cs : List Char) (n : Nat) : position cs n ≤ position cs (n + 1) := by
  have shorter := byteSize_le_of_suffix (restAfter_succ_suffix cs n)
  rw [String.Pos.Raw.le_iff]
  exact Nat.sub_le_sub_left shorter _

/-- A token takes at least one character, so at least one byte. -/
theorem position_lt_succ (live : (tokenAfter cs n).isEnd = false) :
    position cs n < position cs (n + 1) := by
  obtain ⟨front, whole⟩ := restAfter_succ_suffix cs n
  have nonempty : front ≠ [] := by
    rintro rfl
    have shorter := length_restAfter_lt live
    rw [← whole, List.nil_append] at shorter
    exact Nat.lt_irrefl _ shorter
  have taken := Text.byteSize_pos nonempty
  have size : Text.byteSize (restAfter cs n) =
      Text.byteSize front + Text.byteSize (restAfter cs (n + 1)) := by
    rw [← Text.byteSize_append, whole]
  have inside := byteSize_le_of_suffix (restAfter_suffix cs n)
  rw [String.Pos.Raw.lt_iff]
  show Text.byteSize cs - _ < Text.byteSize cs - _
  omega

/-! ### Behind the end -/

/-- Nothing is left behind the end of the stream. -/
theorem restAfter_of_isEnd (ends : (tokenAfter cs m).isEnd) (later : m < n) :
    restAfter cs n = [] := by
  induction later with
  | refl => exact Token.next_of_isEnd ends
  | step _ ih =>
      rw [restAfter, ih]
      rfl

theorem tokenAfter_of_isEnd (ends : (tokenAfter cs m).isEnd) (later : m < n) :
    tokenAfter cs n = .finish := by
  rw [tokenAfter, restAfter_of_isEnd ends later]
  rfl

theorem position_of_isEnd (ends : (tokenAfter cs m).isEnd) (later : m < n) :
    position cs n = (String.ofList cs).rawEndPos := by
  refine position_eq ?_
  rw [restAfter_of_isEnd ends later, List.append_nil]

/-! ### The stream -/

/-- The stream is what is handed out up to the first end, which comes after as many tokens as there
are characters at the latest. -/
theorem exists_stream (cs : List Char) : ∃ n ≤ cs.length,
    tokens cs = (List.range (n + 1)).map (tokenAfter cs) ∧ (tokenAfter cs n).isEnd ∧
      ∀ m < n, (tokenAfter cs m).isEnd = false := by
  induction cs using tokens.induct with
  | case1 cs found ends =>
      exact ⟨0, Nat.zero_le _, tokens_of_isEnd ends, ends, fun m hm => absurd hm (Nat.not_lt_zero m)⟩
  | case2 cs found live ih =>
      have live : (tokenAfter cs 0).isEnd = false := eq_false_of_ne_true live
      have shorter : (restAfter cs 1).length < cs.length := length_restAfter_lt live
      obtain ⟨n, bound, stream, ends, before⟩ := ih
      have first : tokens cs = tokenAfter cs 0 :: tokens (restAfter cs 1) :=
        tokens_live (next_restAfter cs 0) live
      refine ⟨n + 1, Nat.lt_of_le_of_lt bound shorter, ?_, by rw [tokenAfter_succ]; exact ends, ?_⟩
      · rw [first, List.range_succ_eq_map, List.map_cons, List.map_map]
        refine congrArg (_ :: ·) (stream.trans (List.map_congr_left fun m _ => ?_))
        exact (tokenAfter_succ cs m).symm
      · intro m hm
        cases m with
        | zero => exact live
        | succ m =>
            rw [tokenAfter_succ]
            exact before m (by omega)

/-! ### What tokens are made of -/

theorem exists_takes_number {x : Float} (h : tokenAfter cs n = .number x) :
    ∃ l, Takes cs n l ∧ Decimal.IsPlain l ∧ Decimal.unsigned? l = some x := by
  have next : Token.next (restAfter cs n) = (.number x, restAfter cs (n + 1)) := by
    rw [← h, next_restAfter]
  obtain ⟨front, c, behind, text, blanks, scanned⟩ := Token.exists_scan next rfl
  rcases Token.scan_of_isCounted (by rw [scanned]; rfl) with ⟨begins, number⟩ | ⟨-, lost⟩
  · obtain ⟨l, whole, plain, value⟩ := Token.scanNumber_eq begins (number.symm.trans scanned)
    exact ⟨l, ⟨front, blanks, by rw [← whole, text]⟩, plain, value⟩
  · rw [lost] at scanned
    exact absurd (congrArg Prod.fst scanned) (Token.scanLost_ne_number _ _)

theorem exists_takes_lost (h : tokenAfter cs n = .lost) :
    ∃ l, Takes cs n l ∧ Text.byteSize l = 5 := by
  have next : Token.next (restAfter cs n) = (.lost, restAfter cs (n + 1)) := by
    rw [← h, next_restAfter]
  obtain ⟨front, c, behind, text, blanks, scanned⟩ := Token.exists_scan next rfl
  rcases Token.scan_of_isCounted (by rw [scanned]; rfl) with ⟨-, number⟩ | ⟨rfl, lost⟩
  · rw [number] at scanned
    exact absurd (congrArg Prod.fst scanned) (Token.scanNumber_ne_lost _)
  · obtain ⟨l, whole, size⟩ := Token.scanLost_eq (lost.symm.trans scanned)
    exact ⟨l, ⟨front, blanks, by rw [← whole, text]⟩, size⟩

/-- Asking a formula for tokens makes progress and stops for good. The position always lies between
two characters or at an end of the text; every token but the end of the stream moves it forward, and
the end of the stream moves it to the end of the text, where the clean end is handed out whenever
another token is asked for. The stream is what is handed out up to and including its first end; in
front of this there are at most as many tokens as characters.

The characters that are read as a number are a plain decimal, which every reader of decimals accepts,
and those of a lost reference are the five bytes that are jumped over. -/
theorem tokenize_progress (text : String) :
    let cs := body text.toList
    let source := String.ofList cs
    (∀ n, (position cs n).IsValid source ∧ position cs n ≤ source.rawEndPos ∧
      position cs n ≤ position cs (n + 1)) ∧
    (∀ n, (tokenAfter cs n).isEnd = false → position cs n < position cs (n + 1)) ∧
    (∀ m n, (tokenAfter cs m).isEnd → m < n →
      tokenAfter cs n = .finish ∧ position cs n = source.rawEndPos) ∧
    (∃ n ≤ cs.length, tokenize text = (List.range (n + 1)).map (tokenAfter cs) ∧
      (tokenAfter cs n).isEnd ∧ ∀ m < n, (tokenAfter cs m).isEnd = false) ∧
    (∀ n x, tokenAfter cs n = .number x →
      ∃ l, Takes cs n l ∧ Decimal.IsPlain l ∧ Decimal.unsigned? l = some x) ∧
    ∀ n, tokenAfter cs n = .lost → ∃ l, Takes cs n l ∧ Text.byteSize l = 5 := by
  intro cs source
  refine ⟨fun n => ?_, fun n => position_lt_succ, fun m n ends later => ?_, exists_stream cs,
    fun n x => exists_takes_number, fun n => exists_takes_lost⟩
  · exact ⟨position_isValid cs n, (position_isValid cs n).le_rawEndPos, position_le_succ cs n⟩
  · exact ⟨tokenAfter_of_isEnd ends later, position_of_isEnd ends later⟩

/-- A character of two bytes inside a text, a lost reference, and a character that no token begins
with, also of two bytes. -/
theorem tokenize_progress_accented :
    let cs := body "=\"é\" #ref!ß".toList
    position cs 1 = ⟨4⟩ ∧ position cs 2 = ⟨10⟩ ∧ tokenAfter cs 2 = .stop 'ß' ∧
    position cs 2 < position cs 3 ∧
    ∀ n > 2, tokenAfter cs n = .finish ∧ position cs n = ⟨12⟩ := by
  intro cs
  obtain ⟨-, -, behind, -⟩ := tokenize_progress "=\"é\" #ref!ß"
  have stopped : tokenAfter cs 2 = .stop 'ß' := by decide
  have ends : (tokenAfter cs 2).isEnd := by rw [stopped]; rfl
  refine ⟨by decide, by decide, stopped, by decide, fun n later => ?_⟩
  exact behind 2 n ends later

end Formula

end Spreadsheet
