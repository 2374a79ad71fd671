import Dialogue.Proofs.Spans
import Dialogue.Source.Excerpt
import Mathlib

/-!
# Lines of a source

`Source.Location.ofByte` gives a location for every byte, also for one in the middle of a character.
`Source.locate?` looks the location up by cutting the source at bytes and by subtracting, and refuses a cut
through a character (`Source.slice?_eq_some_iff`) and a difference that is negative. Both give the same for
a byte that a character starts at (`Source.Around.locate?`): the line that the byte is on, with as many
lines in front of it as there are line feeds (`Source.Around.splitOn`), and how far into it the byte is.
-/

namespace Dialogue.Source

variable {cs a b before after : List Char} {n i j : Nat}

/-! ### Cuts -/

/-- Cuts a text in two at a byte, if no character reaches over it. -/
def cut? (n : Nat) : List Char → Option (List Char × List Char)
  | [] => if n = 0 then some ([], []) else none
  | c :: cs =>
    if n = 0 then some ([], c :: cs)
    else if n < c.utf8Size then none
    else (cut? (n - c.utf8Size) cs).map fun parts => (c :: parts.1, parts.2)

/-- A difference, unless it is negative. -/
def minus? (a b : Nat) : Option Nat := if b ≤ a then some (a - b) else none

/-- The part of a text from one byte up to another. -/
def slice? (cs : List Char) (start stop : Nat) : Option (List Char) := do
  let (_, rest) ← cut? start cs
  let length ← minus? stop start
  let (part, _) ← cut? length rest
  return part

theorem cut?_append (a b : List Char) : cut? (byteLength a) (a ++ b) = some (a, b) := by
  induction a with
  | nil => cases b <;> rfl
  | cons c a ih =>
    have hpos := c.utf8Size_pos
    rw [List.cons_append, byteLength_cons, cut?, if_neg (by omega), if_neg (by omega),
      Nat.add_sub_cancel_left, ih]
    rfl

theorem eq_append_of_cut? (h : cut? n cs = some (a, b)) : cs = a ++ b ∧ byteLength a = n := by
  fun_induction cut? n cs generalizing a with
  | case1 => cases h; exact ⟨rfl, rfl⟩
  | case2 => cases h
  | case3 => cases h; exact ⟨rfl, rfl⟩
  | case4 => cases h
  | case5 n c cs _ hle ih =>
    obtain ⟨⟨a, b⟩, hcut, heq⟩ := Option.map_eq_some_iff.1 h
    cases heq
    obtain ⟨rfl, hlen⟩ := ih hcut
    exact ⟨rfl, by rw [byteLength_cons, hlen]; omega⟩

theorem minus?_add (a b : Nat) : minus? (a + b) a = some b := by
  rw [minus?, if_pos (Nat.le_add_right a b), Nat.add_sub_cancel_left]

theorem eq_add_of_minus? (h : minus? j i = some n) : j = i + n := by
  rw [minus?] at h
  split at h
  · cases h
    omega
  · cases h

/-- A slice starts and ends between characters. -/
theorem slice?_eq_some_iff {part : List Char} :
    slice? cs i j = some part ↔
      ∃ a b, cs = a ++ (part ++ b) ∧ byteLength a = i ∧ byteLength a + byteLength part = j := by
  simp only [slice?, bind, Option.bind_eq_some_iff, pure, Option.some_inj, Prod.exists]
  constructor
  · rintro ⟨a, rest, hcut, length, hminus, part, b, hcut', rfl⟩
    obtain ⟨rfl, rfl⟩ := eq_append_of_cut? hcut
    obtain ⟨rfl, rfl⟩ := eq_append_of_cut? hcut'
    exact ⟨a, b, rfl, rfl, (eq_add_of_minus? hminus).symm⟩
  · rintro ⟨a, b, rfl, rfl, rfl⟩
    exact ⟨a, part ++ b, cut?_append _ _, byteLength part, minus?_add _ _, part, b, cut?_append _ _, rfl⟩

/-! ### Line feeds -/

/-- The byte of the first line feed. -/
def firstFeed? : List Char → Option Nat
  | [] => none
  | c :: cs => if c = '\n' then some 0 else (firstFeed? cs).map (c.utf8Size + ·)

/-- The byte of the last line feed. -/
def lastFeed? : List Char → Option Nat
  | [] => none
  | c :: cs =>
    match lastFeed? cs with
    | some n => some (c.utf8Size + n)
    | none => if c = '\n' then some 0 else none

theorem firstFeed?_of_not_mem (h : '\n' ∉ cs) : firstFeed? cs = none := by
  induction cs with
  | nil => rfl
  | cons c cs ih =>
    rw [firstFeed?, if_neg (List.ne_of_not_mem_cons h).symm, ih (List.not_mem_of_not_mem_cons h)]
    rfl

theorem firstFeed?_append (h : '\n' ∉ a) (b : List Char) :
    firstFeed? (a ++ '\n' :: b) = some (byteLength a) := by
  induction a with
  | nil => rfl
  | cons c a ih =>
    rw [List.cons_append, firstFeed?, if_neg (List.ne_of_not_mem_cons h).symm,
      ih (List.not_mem_of_not_mem_cons h)]
    rfl

theorem lastFeed?_of_not_mem (h : '\n' ∉ cs) : lastFeed? cs = none := by
  induction cs with
  | nil => rfl
  | cons c cs ih =>
    rw [lastFeed?, ih (List.not_mem_of_not_mem_cons h)]
    exact if_neg (List.ne_of_not_mem_cons h).symm

theorem lastFeed?_append (a : List Char) (h : '\n' ∉ b) :
    lastFeed? (a ++ '\n' :: b) = some (byteLength a) := by
  induction a with
  | nil => rw [List.nil_append, lastFeed?, lastFeed?_of_not_mem h]; rfl
  | cons c a ih => rw [List.cons_append, lastFeed?, ih]; rfl

/-- A text around a place in it: the lines in front of the line that the place is on, what of this line is
in front of the place and what is behind it, and the rest of the text. -/
structure Around (cs front before after rest : List Char) : Prop where
  eq : cs = front ++ (before ++ (after ++ rest))
  front_eq : front = [] ∨ ∃ lines, front = lines ++ ['\n']
  before : '\n' ∉ before
  after : '\n' ∉ after
  rest_eq : rest = [] ∨ ∃ lines, rest = '\n' :: lines

/-- A text goes up to its first line feed, or to its end. -/
theorem exists_firstLine (cs : List Char) :
    ∃ line rest, cs = line ++ rest ∧ '\n' ∉ line ∧ (rest = [] ∨ ∃ lines, rest = '\n' :: lines) := by
  by_cases h : '\n' ∈ cs
  · obtain ⟨line, lines, rfl, hline⟩ := List.eq_append_cons_of_mem h
    exact ⟨line, _, rfl, hline, .inr ⟨lines, rfl⟩⟩
  · exact ⟨cs, [], (List.append_nil cs).symm, h, .inl rfl⟩

/-- A text goes on from its last line feed, or from its start. -/
theorem exists_lastLine (cs : List Char) :
    ∃ front line, cs = front ++ line ∧ '\n' ∉ line ∧ (front = [] ∨ ∃ lines, front = lines ++ ['\n']) := by
  obtain ⟨line, rest, hcs, hline, hrest⟩ := exists_firstLine cs.reverse
  refine ⟨rest.reverse, line.reverse, ?_, by simpa using hline, ?_⟩
  · rw [← List.reverse_append, ← hcs, List.reverse_reverse]
  · rcases hrest with rfl | ⟨lines, rfl⟩
    · exact .inl rfl
    · exact .inr ⟨lines.reverse, List.reverse_cons⟩

theorem exists_around (a b : List Char) :
    ∃ front before after rest, a = front ++ before ∧ b = after ++ rest ∧
      Around (a ++ b) front before after rest := by
  obtain ⟨front, before, rfl, hbefore, hfront⟩ := exists_lastLine a
  obtain ⟨after, rest, rfl, hafter, hrest⟩ := exists_firstLine b
  exact ⟨front, before, after, rest, rfl, rfl, List.append_assoc _ _ _, hfront, hbefore, hafter, hrest⟩

theorem length_splitOn (cs : List Char) : (cs.splitOn '\n').length = cs.count '\n' + 1 := by
  induction cs with
  | nil => rfl
  | cons c cs ih =>
    rw [List.splitOn_cons_eq_if_modifyHead, List.count_cons]
    split
    · rw [List.length_cons, ih]
    · rw [List.length_modifyHead, ih, Nat.add_zero]

/-- The lines of a text have all of its bytes but for the line feeds between them. -/
theorem sum_splitOn (cs : List Char) :
    ((cs.splitOn '\n').map fun line => byteLength line + 1).sum = byteLength cs + 1 := by
  induction cs with
  | nil => rfl
  | cons c cs ih =>
    rw [List.splitOn_cons_eq_if_modifyHead]
    split
    · next hc =>
      obtain rfl := beq_iff_eq.1 hc
      rw [List.map_cons, List.sum_cons, ih, byteLength_cons, byteLength_nil]
      rfl
    · obtain ⟨line, lines, hlines⟩ := List.exists_cons_of_ne_nil (List.splitOn_ne_nil '\n' cs)
      rw [hlines, List.map_cons, List.sum_cons] at ih
      rw [hlines, List.modifyHead_cons, List.map_cons, List.sum_cons, byteLength_cons, byteLength_cons]
      omega

namespace Around

variable {front before after rest : List Char}

theorem lineStart (h : Around cs front before after rest) :
    ((lastFeed? (front ++ before)).map (· + 1)).getD 0 = byteLength front := by
  rcases h.front_eq with rfl | ⟨lines, rfl⟩
  · rw [List.nil_append, lastFeed?_of_not_mem h.before]
    rfl
  · rw [List.append_assoc, List.singleton_append, lastFeed?_append lines h.before, byteLength_append]
    rfl

theorem lineEnd (h : Around cs front before after rest) (n : Nat) :
    ((firstFeed? (after ++ rest)).map (n + ·)).getD (n + byteLength (after ++ rest)) =
      n + byteLength after := by
  rcases h.rest_eq with rfl | ⟨lines, rfl⟩
  · rw [List.append_nil, firstFeed?_of_not_mem h.after]
    rfl
  · rw [firstFeed?_append h.after]
    rfl

theorem lastLine (h : Around cs front before after rest) : lastLine (front ++ before) = before := by
  have hfeed : ∀ c ∈ front.reverse.head?, (c != '\n') = false := by
    rcases h.front_eq with rfl | ⟨lines, rfl⟩
    · nofun
    · simp
  have hbefore : ∀ c ∈ before.reverse, (c != '\n') = true := fun c hc =>
    bne_iff_ne.2 fun hn => h.before (hn ▸ List.mem_reverse.1 hc)
  rw [Source.lastLine, List.reverse_append, (takeWhile_append_of_head hfeed _).1,
    List.takeWhile_eq_self_iff.2 hbefore, List.reverse_reverse]

theorem firstLine (h : Around cs front before after rest) :
    (after ++ rest).takeWhile (· != '\n') = after := by
  have hfeed : ∀ c ∈ rest.head?, (c != '\n') = false := by
    rcases h.rest_eq with rfl | ⟨lines, rfl⟩
    · nofun
    · simp
  have hafter : ∀ c ∈ after, (c != '\n') = true := fun c hc =>
    bne_iff_ne.2 fun hn => h.after (hn ▸ hc)
  rw [(takeWhile_append_of_head hfeed _).1, List.takeWhile_eq_self_iff.2 hafter]

/-- The line of the place has as many lines in front of it as there are line feeds, and they have the
bytes in front of it. -/
theorem splitOn (h : Around cs front before after rest) :
    ∃ earlier later, cs.splitOn '\n' = earlier ++ (before ++ after) :: later ∧
      earlier.length = (front ++ before).count '\n' ∧
      (earlier.map fun line => byteLength line + 1).sum = byteLength front := by
  have hline : '\n' ∉ before ++ after := fun hn =>
    (List.mem_append.1 hn).elim h.before h.after
  have hcount : before.count '\n' = 0 := List.count_eq_zero.2 h.before
  -- behind the lines in front, the line of the place is the first
  obtain ⟨later, hlater⟩ : ∃ later, (before ++ (after ++ rest)).splitOn '\n' = (before ++ after) :: later := by
    rw [← List.append_assoc]
    rcases h.rest_eq with rfl | ⟨lines, rfl⟩
    · rw [List.append_nil, List.splitOn_eq_singleton hline]
      exact ⟨[], rfl⟩
    · rw [List.splitOn_append_cons_self_of_not_mem hline]
      exact ⟨_, rfl⟩
  rw [h.eq, List.count_append, hcount, Nat.add_zero]
  rcases h.front_eq with rfl | ⟨lines, rfl⟩
  · exact ⟨[], later, hlater, rfl, rfl⟩
  · refine ⟨lines.splitOn '\n', later, ?_, ?_, ?_⟩
    · rw [List.append_assoc, List.singleton_append, List.splitOn_append_cons_self, hlater]
    · rw [length_splitOn, List.count_append]
      rfl
    · rw [sum_splitOn, byteLength_append]
      rfl

end Around

/-! ### Locations -/

/-- Where the byte `n` lies, looked up by bytes; nothing if that takes a cut through a character or a
difference that is negative. -/
def locate? (source : String) (n : Nat) : Option Location := do
  let cs := source.toList
  let start := min n (byteLength cs)
  let before ← slice? cs 0 start
  let after ← slice? cs start (byteLength cs)
  let lineStart := ((lastFeed? before).map (· + 1)).getD 0
  let lineEnd := ((firstFeed? after).map (start + ·)).getD (byteLength cs)
  let text ← slice? cs lineStart lineEnd
  let indent ← minus? start lineStart
  return { line := before.count '\n' + 1, column := indent + 1, text }

/-- How far the carets are indented and how many there are; nothing if that takes a difference that is
negative. -/
def Location.carets? (loc : Location) (place : Span) : Option (Nat × Nat) := do
  let width := byteLength loc.text
  let indent := min (← minus? loc.column 1) width
  let room ← minus? width indent
  return (indent, max 1 (min place.length room))

theorem splitAtByte_append (a b : List Char) : splitAtByte (byteLength a) (a ++ b) = (a, b) := by
  induction a with
  | nil => cases b <;> rfl
  | cons c a ih =>
    have hpos := c.utf8Size_pos
    rw [List.cons_append, byteLength_cons, splitAtByte, if_neg (by omega), Nat.add_sub_cancel_left, ih]

variable {source : String} {front before after rest : List Char}

theorem Around.ofByte (h : Around source.toList front before after rest) :
    Location.ofByte source (byteLength (front ++ before)) =
      { line := (front ++ before).count '\n' + 1
        column := byteLength before + 1
        text := before ++ after } := by
  have hsplit : splitAtByte (byteLength (front ++ before)) source.toList =
      (front ++ before, after ++ rest) := by
    rw [h.eq, ← List.append_assoc]
    exact splitAtByte_append _ _
  simp only [Location.ofByte, hsplit, h.lastLine, h.firstLine]

theorem Around.locate? (h : Around source.toList front before after rest) :
    locate? source (byteLength (front ++ before)) =
      some (Location.ofByte source (byteLength (front ++ before))) := by
  have hlen : byteLength source.toList = byteLength (front ++ before) + byteLength (after ++ rest) := by
    rw [h.eq]
    simp only [byteLength_append]
    omega
  have hstart : min (byteLength (front ++ before)) (byteLength source.toList) =
      byteLength (front ++ before) := by omega
  have hbefore : slice? source.toList 0 (byteLength (front ++ before)) = some (front ++ before) :=
    slice?_eq_some_iff.2 ⟨[], after ++ rest, by rw [h.eq]; simp, rfl, Nat.zero_add _⟩
  have hafter : slice? source.toList (byteLength (front ++ before)) (byteLength source.toList) =
      some (after ++ rest) :=
    slice?_eq_some_iff.2 ⟨front ++ before, [], by rw [h.eq]; simp, rfl, hlen.symm⟩
  have hline : slice? source.toList (byteLength front) (byteLength (front ++ before) + byteLength after) =
      some (before ++ after) :=
    slice?_eq_some_iff.2 ⟨front, rest, by rw [h.eq]; simp, rfl, by simp only [byteLength_append]; omega⟩
  have hindent : minus? (byteLength (front ++ before)) (byteLength front) = some (byteLength before) := by
    rw [byteLength_append, minus?_add]
  have hend := h.lineEnd (byteLength (front ++ before))
  rw [← hlen] at hend
  simp only [Source.locate?, hstart, hbefore, hafter, h.lineStart, hend, hline, hindent, bind, Option.bind,
    pure, h.ofByte]

end Dialogue.Source
