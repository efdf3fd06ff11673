/-!
# Blank characters

Blank characters: the 25 code points with the Unicode property White_Space, and trimming by them.
Trimming works on lists of characters, where it can be reasoned about; the string form is a wrapper.
-/
namespace PreviewControl.Text

/-- Blank characters are the code points of the Unicode property White_Space. -/
def isBlank (c : Char) : Bool :=
  let n := c.toNat
  (9 ≤ n && n ≤ 13) || n == 0x20 || n == 0x85 || n == 0xA0 || n == 0x1680 ||
  (0x2000 ≤ n && n ≤ 0x200A) || n == 0x2028 || n == 0x2029 || n == 0x202F || n == 0x205F ||
  n == 0x3000

/-- What is left after the blanks at the start. -/
def trimStart (cs : List Char) : List Char := cs.dropWhile isBlank

/-- What is left before the blanks at the end. -/
def trimEnd (cs : List Char) : List Char := (cs.reverse.dropWhile isBlank).reverse

/-- What is left between the blanks at both ends. -/
def trim (cs : List Char) : List Char := trimEnd (trimStart cs)

@[simp] theorem trim_nil : trim [] = [] := rfl

/-- Trimming does nothing to a list whose ends are not blank. -/
theorem trim_eq_self {cs : List Char} (hs : ∀ c ∈ cs.head?, isBlank c = false)
    (he : ∀ c ∈ cs.getLast?, isBlank c = false) : trim cs = cs := by
  have h1 : trimStart cs = cs := by
    cases cs with
    | nil => rfl
    | cons c r => simp [trimStart, List.dropWhile, hs c rfl]
  rw [trim, h1, trimEnd]
  rcases List.eq_nil_or_concat cs with rfl | ⟨l, c, rfl⟩
  · rfl
  · have : isBlank c = false := he c (by simp)
    simp [this]

/-- The text stands by itself, or between blanks. -/
def Padded (text cs : List Char) : Prop :=
  ∃ front back, (∀ c ∈ front, isBlank c = true) ∧ (∀ c ∈ back, isBlank c = true) ∧
    cs = front ++ text ++ back

theorem trimStart_append {front rest : List Char} (h : ∀ c ∈ front, isBlank c = true) :
    trimStart (front ++ rest) = trimStart rest := List.dropWhile_append_of_pos h

theorem trimEnd_append {rest back : List Char} (h : ∀ c ∈ back, isBlank c = true) :
    trimEnd (rest ++ back) = trimEnd rest := by
  rw [trimEnd, trimEnd, List.reverse_append,
    List.dropWhile_append_of_pos fun c hc => h c (List.mem_reverse.1 hc)]

/-- Trimming takes blanks off both ends and nothing else. -/
theorem padded_trim (cs : List Char) : Padded (trim cs) cs := by
  refine ⟨cs.takeWhile isBlank, ((trimStart cs).reverse.takeWhile isBlank).reverse,
    fun c hc => ?_, fun c hc => ?_, ?_⟩
  · exact List.all_eq_true.1 List.all_takeWhile c hc
  · exact List.all_eq_true.1 List.all_takeWhile c (List.mem_reverse.1 hc)
  · rw [trim, trimEnd, List.append_assoc, ← List.reverse_append, List.takeWhile_append_dropWhile,
      List.reverse_reverse, trimStart, List.takeWhile_append_dropWhile]

/-- What is left of a text by trimming, if its ends are no blanks, is the text that stands in it
between blanks. -/
theorem trim_eq_iff {text cs : List Char} (hs : ∀ c ∈ text.head?, isBlank c = false)
    (he : ∀ c ∈ text.getLast?, isBlank c = false) : trim cs = text ↔ Padded text cs := by
  constructor
  · rintro rfl
    exact padded_trim cs
  · rintro ⟨front, back, hfront, hback, rfl⟩
    rw [List.append_assoc, trim, trimStart_append hfront]
    cases text with
    | nil =>
      have hnil : trimStart (back ++ []) = trimStart [] := trimStart_append hback
      rw [List.append_nil] at hnil
      rw [List.nil_append, hnil]
      rfl
    | cons c r =>
      have hstart (rest : List Char) : trimStart (c :: r ++ rest) = c :: r ++ rest := by
        simp [trimStart, hs c rfl]
      have hself := trim_eq_self hs he
      rw [trim, ← List.append_nil (c :: r), hstart, List.append_nil] at hself
      rw [hstart, trimEnd_append hback, hself]

end PreviewControl.Text
