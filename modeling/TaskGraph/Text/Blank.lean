namespace TaskGraph.Text

/-- The characters with the property `White_Space`. The zero-width space and the byte order mark do
    not have it. -/
def isBlankChar (c : Char) : Bool :=
  let n := c.toNat
  (0x09 ≤ n && n ≤ 0x0D) || n == 0x20 || n == 0x85 || n == 0xA0 || n == 0x1680 ||
    (0x2000 ≤ n && n ≤ 0x200A) || n == 0x2028 || n == 0x2029 || n == 0x202F || n == 0x205F ||
    n == 0x3000

/-- The list without the longest run of characters satisfying `p` at its end. -/
def dropEndWhile (p : Char → Bool) (cs : List Char) : List Char :=
  (cs.reverse.dropWhile p).reverse

/-- The list without the blanks at its two ends. -/
def trimChars (cs : List Char) : List Char :=
  dropEndWhile isBlankChar (cs.dropWhile isBlankChar)

/-- The text without the blanks at its two ends. -/
def trim (s : String) : String := String.ofList (trimChars s.toList)

/-- A text is blank when it holds nothing but blanks. -/
def isBlank (s : String) : Bool := s.toList.all isBlankChar

theorem dropWhile_eq_nil_iff {p : Char → Bool} {cs : List Char} :
    cs.dropWhile p = [] ↔ ∀ c ∈ cs, p c := by
  induction cs with
  | nil => simp
  | cons c cs ih => cases h : p c <;> simp [h, ih]

theorem mem_or_mem_dropWhile {p : Char → Bool} {cs : List Char} {c : Char} (h : c ∈ cs) :
    p c ∨ c ∈ cs.dropWhile p := by
  induction cs with
  | nil => simp at h
  | cons d cs ih => grind [List.dropWhile_cons]

theorem trimChars_eq_nil_iff {cs : List Char} :
    trimChars cs = [] ↔ ∀ c ∈ cs, isBlankChar c := by
  simp only [trimChars, dropEndWhile, List.reverse_eq_nil_iff, dropWhile_eq_nil_iff,
    List.mem_reverse]
  exact ⟨fun h c hc => (mem_or_mem_dropWhile hc).elim id (h c),
    fun h c hc => h c ((List.dropWhile_sublist _).subset hc)⟩

/-- Trimming leaves nothing of a blank text, and something of every other one. -/
theorem trim_eq_empty_iff {s : String} : trim s = "" ↔ isBlank s := by
  rw [isBlank, List.all_eq_true, ← trimChars_eq_nil_iff, trim]
  constructor
  · intro h
    simpa using congrArg String.toList h
  · intro h
    simp [h]

theorem dropWhile_eq_self {p : Char → Bool} {cs : List Char} (h : ∀ c ∈ cs, p c = false) :
    cs.dropWhile p = cs := by
  cases cs with
  | nil => rfl
  | cons c cs => rw [List.dropWhile_cons_of_neg (by simp [h c List.mem_cons_self])]

/-- Trimming changes nothing in a text without blanks. -/
theorem trim_eq_self {s : String} (h : ∀ c ∈ s.toList, isBlankChar c = false) : trim s = s := by
  have hreverse : ∀ c ∈ s.toList.reverse, isBlankChar c = false :=
    fun c hc => h c (List.mem_reverse.1 hc)
  rw [trim, trimChars, dropEndWhile, dropWhile_eq_self h, dropWhile_eq_self hreverse,
    List.reverse_reverse, String.ofList_toList]

end TaskGraph.Text
