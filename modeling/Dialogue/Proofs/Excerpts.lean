import Dialogue.Proofs.Printing
import Dialogue.Proofs.Slices

/-!
# Excerpts of a source

Whatever is wrong with a source, the fault is about a part of it that lies on one line
(`Source.Faulty.covers`): the white space that is no gap, a token, or nothing at the very start. So the
place can be cut out of the source, and the excerpt shows the line with carets under this part.
-/

namespace Dialogue.Source

variable {source : String} {cs : List Char} {f : Fault} {x : Lexeme} {place : Span} {r r' : Reader}
  {ts : List Lexeme} {outer : List OpenList} {inner : OpenList}

/-! ### What a fault is about -/

/-- Reading the source comes to the fault: while it is cut into tokens, while all lists are read, after
some lists have been asked for one by one, or while it is read as one list. -/
inductive Faulty (source : String) : Fault → Prop
  | cutting {f : Fault} : Reader.ofSource source = .error f → Faulty source f
  | all {r : Reader} {f : Fault} : Reader.ofSource source = .ok r → r.all = .error f → Faulty source f
  | next {r : Reader} {f : Fault} (n : Nat) : Reader.ofSource source = .ok r →
      (r.called n).next.1 = .error f → Faulty source f
  | one {f : Fault} : readOne source = .error f → Faulty source f

/-- The bytes are those of a part of the text that lies on one line. -/
def Covers (cs : List Char) (place : Span) : Prop :=
  ∃ a part b, cs = a ++ (part ++ b) ∧ place = ⟨byteLength a, byteLength a + byteLength part⟩ ∧ '\n' ∉ part

theorem ne_feed_of_not_isGap {c : Char} (h : ¬ isGap c) : '\n' ≠ c := by
  rintro rfl
  exact h rfl

theorem feed_not_mem_run {run : List Char} (h : ∀ c ∈ run, isRunChar c) : '\n' ∉ run :=
  fun hn => absurd (h _ hn) (by decide)

theorem Stands.covers (h : Stands cs x) : Covers cs x.place := by
  cases h with
  | @mark before after c token h hm =>
    refine ⟨before, [c], after, h, by simp, ?_⟩
    rw [List.mem_singleton]
    exact ne_feed_of_not_isGap (by simp [not_isGap_of_ofMark? hm])
  | number h hrun => exact ⟨_, _, _, h, rfl, feed_not_mem_run hrun.all⟩
  | word h hrun => exact ⟨_, _, _, h, rfl, feed_not_mem_run hrun.all⟩

theorem covers_nowhere (cs : List Char) : Covers cs .nowhere := ⟨[], [], cs, rfl, rfl, nofun⟩

/-- Every token of a source but its end stands in it. -/
theorem covers_of_ofSource (h : Reader.ofSource source = .ok r) (hx : x ∈ r.rest) (hne : x.token ≠ .finish) :
    Covers source.toList x.place := by
  obtain ⟨ls, left, hcuts, -, hlexemes⟩ := exists_cuts source.toList
  obtain ⟨ts, htokens, rfl⟩ := map_eq_ok.1 h
  rw [tokenize, hlexemes 0] at htokens
  cases left with
  | cons c left => cases htokens
  | nil =>
    cases htokens
    rcases List.mem_append.1 hx with hx | hx
    · exact (stands_of_cuts hcuts hx).covers
    · rw [List.mem_singleton.1 hx] at hne
      exact absurd rfl hne

theorem covers_of_cutting (h : Reader.ofSource source = .error f) : Covers source.toList f.place := by
  obtain ⟨ls, left, hcuts, hleft, hlexemes⟩ := exists_cuts source.toList
  rw [Reader.ofSource, tokenize, hlexemes 0] at h
  cases left with
  | nil => cases h
  | cons c left =>
    cases h
    refine ⟨Lexicon.chars ls, [c], left, hcuts.eq_append, by simp [Fault.place], ?_⟩
    rw [List.mem_singleton]
    exact ne_feed_of_not_isGap (hleft c rfl).2

/-- A fault in a list is about a list that is open, or about a token that is not the end. -/
theorem place_of_fill {P : Span → Prop} (h : (fill outer inner ts).1 = .error f) (hinner : P inner.place)
    (houter : ∀ l ∈ outer, P l.place) (hts : ∀ x ∈ ts, x.token ≠ .finish → P x.place) : P f.place := by
  fun_induction fill outer inner ts with
  | case1 => cases h; exact hinner
  | case2 outer inner place rest ih =>
    obtain ⟨hplace, hts⟩ := List.forall_mem_cons.1 hts
    exact ih h (hplace (by simp)) (List.forall_mem_cons.2 ⟨hinner, houter⟩) hts
  | case3 => cases h
  | case4 inner place rest next outer ih =>
    obtain ⟨hnext, houter⟩ := List.forall_mem_cons.1 houter
    exact ih h hnext houter (List.forall_mem_cons.1 hts).2
  | case5 outer inner place rest ih | case6 outer inner place rest text ih
  | case7 outer inner place rest n ih =>
    exact ih h hinner houter (List.forall_mem_cons.1 hts).2
  | case8 => cases h; exact (List.forall_mem_cons.1 hts).1 (by simp)
  | case9 => cases h; exact hinner

theorem place_of_next {P : Span → Prop} (h : r.next.1 = .error f)
    (hr : ∀ x ∈ r.rest, x.token ≠ .finish → P x.place) : P f.place := by
  obtain ⟨_ | ⟨⟨token, place⟩, ts⟩⟩ := r
  · cases h
  · obtain ⟨hplace, hts⟩ := List.forall_mem_cons.1 hr
    cases token with
    | opening =>
      have hnext : (Reader.next ⟨⟨.opening, place⟩ :: ts⟩).1 = (fill [] ⟨place, []⟩ ts).1.map some := rfl
      rw [hnext] at h
      cases hf : (fill [] ⟨place, []⟩ ts).1 with
      | ok cells => rw [hf] at h; cases h
      | error fault =>
        rw [hf] at h
        cases h
        exact place_of_fill hf (hplace nofun) nofun hts
    | finish => cases h
    | _ => cases h; exact hplace nofun

theorem suffix_of_next {result : Except Fault (Option (List Datum))} (h : r.next = (result, r')) :
    r'.rest <:+ r.rest := by
  have hsuffix := r.next_suffix
  rwa [h] at hsuffix

theorem Reader.Reads.suffix {lists : List (List Datum)} (h : Reads r lists r') : r'.rest <:+ r.rest := by
  induction h with
  | nothing => exact List.suffix_refl _
  | list hnext _ ih => exact ih.trans (suffix_of_next hnext)

theorem place_of_readOne {P : Span → Prop} (h : readOne source = .error f) (hnowhere : P .nowhere)
    (hcut : ∀ fault, Reader.ofSource source = .error fault → P fault.place)
    (hr : ∀ r, Reader.ofSource source = .ok r → ∀ x ∈ r.rest, x.token ≠ .finish → P x.place) :
    P f.place := by
  cases hsource : Reader.ofSource source with
  | error fault =>
    rw [readOne, hsource] at h
    cases h
    exact hcut _ hsource
  | ok r =>
    cases hnext : r.next with
    | mk result after =>
      simp only [readOne, hsource, hnext, bind, Except.bind] at h
      rcases result with fault | _ | cells
      · cases h
        exact place_of_next (congrArg Prod.fst hnext) (hr r hsource)
      · cases h
        exact hnowhere
      · simp only at h
        split at h
        · cases h
        · next hend =>
          cases h
          have hsuffix := suffix_of_next hnext
          obtain ⟨_ | ⟨x, rest⟩⟩ := after
          · exact absurd rfl hend
          · refine hr r hsource x (hsuffix.subset List.mem_cons_self) fun hfinish => hend ?_
            exact beq_iff_eq.2 hfinish

/-- The part that a fault is about lies on one line. -/
theorem Faulty.covers (h : Faulty source f) : Covers source.toList f.place := by
  cases h with
  | cutting h => exact covers_of_cutting h
  | @all r _ hr h =>
    obtain ⟨r', hreads, hend⟩ := r.reads_lists
    rw [Reader.all_eq_error_iff.1 h] at hend
    exact place_of_next hend fun x hx => covers_of_ofSource hr (hreads.suffix.subset hx)
  | @next r _ n hr h =>
    exact place_of_next h fun x hx => covers_of_ofSource hr ((r.called_suffix n).subset hx)
  | one h =>
    exact place_of_readOne h (covers_nowhere _) (fun _ => covers_of_cutting) fun r hr x =>
      covers_of_ofSource hr

/-! ### What an excerpt shows -/

/-- The location is a line of the text and a column in it, and they tell the byte `n`. -/
structure Located (cs : List Char) (n : Nat) (loc : Location) : Prop where
  /-- In front of the byte there are whole lines and then a part of a line. -/
  place : ∃ front before rest, cs = front ++ (before ++ rest) ∧
    (front = [] ∨ ∃ lines, front = lines ++ ['\n']) ∧ '\n' ∉ before ∧ byteLength (front ++ before) = n ∧
      loc.line = 1 + (front ++ before).count '\n' ∧ loc.column = 1 + byteLength before
  line : (cs.splitOn '\n')[loc.line - 1]? = some loc.text
  one_line : '\n' ∉ loc.text
  byte : (((cs.splitOn '\n').take (loc.line - 1)).map fun line => byteLength line + 1).sum +
    (loc.column - 1) = n

theorem Around.located {front before after rest : List Char}
    (h : Around source.toList front before after rest) :
    Located source.toList (byteLength (front ++ before))
      (Location.ofByte source (byteLength (front ++ before))) := by
  obtain ⟨earlier, later, hsplit, hlength, hbytes⟩ := h.splitOn
  rw [h.ofByte]
  refine ⟨⟨front, before, after ++ rest, h.eq, h.front_eq, h.before, rfl, Nat.add_comm _ _,
    Nat.add_comm _ _⟩, ?_, ?_, ?_⟩
  · rw [hsplit, Nat.add_sub_cancel, ← hlength]
    simp
  · exact fun hn => (List.mem_append.1 hn).elim h.before h.after
  · simp only [hsplit, Nat.add_sub_cancel, ← hlength, List.take_left', hbytes, byteLength_append]

/-- An excerpt is made of the location and the carets of its place. -/
theorem excerpt_eq {message : String} {indent carets : Nat}
    (h : (Location.ofByte source place.start).carets? place = some (indent, carets)) :
    let loc := Location.ofByte source place.start
    excerpt source (some place) message =
      s!"Error at line {loc.line}, column {loc.column}:\n  {message}\n\n  "
        ++ String.ofList loc.text ++ "\n  "
        ++ String.ofList (.replicate indent ' ' ++ .replicate carets '^') ++ "\n" := by
  simp only [Location.carets?, bind, Option.bind_eq_some_iff, pure, Option.some_inj] at h
  obtain ⟨back, hback, room, hroom, hcarets⟩ := h
  have hcolumn := eq_add_of_minus? hback
  have hwidth := eq_add_of_minus? hroom
  obtain rfl : back = (Location.ofByte source place.start).column - 1 := by omega
  obtain rfl : room = byteLength (Location.ofByte source place.start).text -
    min ((Location.ofByte source place.start).column - 1)
      (byteLength (Location.ofByte source place.start).text) := by omega
  cases hcarets
  rfl

/-- What is on one line does not go beyond the line that it starts on. -/
theorem Around.byteLength_le {front before after rest part b : List Char}
    (h : Around cs front before after rest) (heq : part ++ b = after ++ rest) (hpart : '\n' ∉ part) :
    byteLength part ≤ byteLength after := by
  -- were `part` the longer one, the line feed that `rest` starts with would be in it
  rcases List.append_eq_append_iff.1 heq with ⟨more, rfl, -⟩ | ⟨more, rfl, hrest⟩
  · rw [byteLength_append]
    exact Nat.le_add_right _ _
  · rcases h.rest_eq with rfl | ⟨lines, rfl⟩
    · rw [(List.append_eq_nil_iff.1 hrest.symm).1, List.append_nil]
    · cases more with
      | nil => rw [List.append_nil]
      | cons c more =>
        obtain ⟨rfl, -⟩ := List.cons.inj hrest
        exact absurd (by simp) hpart

theorem Around.carets? {front before after rest : List Char}
    (h : Around source.toList front before after rest)
    (hplace : place.start = byteLength (front ++ before)) (hle : place.length ≤ byteLength after) :
    (Location.ofByte source place.start).carets? place =
      some ((Location.ofByte source place.start).column - 1, max 1 place.length) := by
  have hcolumn : minus? (byteLength before + 1) 1 = some (byteLength before) := by
    rw [Nat.add_comm, minus?_add]
  have hwidth : minus? (byteLength before + byteLength after) (byteLength before) =
      some (byteLength after) := minus?_add _ _
  rw [hplace, h.ofByte]
  simp only [Location.carets?, hcolumn, byteLength_append, Nat.min_eq_left (Nat.le_add_right _ _), hwidth,
    Nat.min_eq_left hle, bind, Option.bind, pure, Nat.add_sub_cancel]

/-- The excerpt of whatever fault a source has can be made without a cut through a character and without a
negative difference. It shows the line that the fault is on, and the carets under it start at the fault
and do not go beyond the line, unless the fault is at the end of the line. -/
theorem excerpt_points_at_fault (h : Faulty source f) :
    ∃ loc carets, locate? source f.place.start = some loc ∧
      loc.carets? f.place = some (loc.column - 1, carets) ∧
      f.excerpt source =
        s!"Error at line {loc.line}, column {loc.column}:\n  {f.message}\n\n  "
          ++ String.ofList loc.text ++ "\n  "
          ++ String.ofList (.replicate (loc.column - 1) ' ' ++ .replicate carets '^') ++ "\n" ∧
      Located source.toList f.place.start loc ∧ carets = max 1 f.place.length ∧
      (loc.column - 1 + carets ≤ byteLength loc.text ∨ loc.column - 1 = byteLength loc.text) := by
  obtain ⟨a, part, b, hcs, hplace, hpart⟩ := h.covers
  obtain ⟨front, before, after, rest, rfl, hafter, haround⟩ := exists_around a (part ++ b)
  rw [← hcs] at haround
  have hstart : f.place.start = byteLength (front ++ before) := congrArg Span.start hplace
  have hlength : f.place.length = byteLength part := by
    rw [hplace]
    exact Nat.add_sub_cancel_left _ _
  have hle : f.place.length ≤ byteLength after := by
    rw [hlength]
    exact haround.byteLength_le hafter hpart
  have hcarets := haround.carets? hstart hle
  refine ⟨Location.ofByte source f.place.start, max 1 f.place.length, ?_, hcarets, excerpt_eq hcarets, ?_,
    rfl, ?_⟩
  · rw [hstart]
    exact haround.locate?
  · rw [hstart]
    exact haround.located
  · rw [hstart, haround.ofByte]
    simp only [byteLength_append, Nat.add_sub_cancel]
    omega

/-- A list that is not closed, on the second line and behind a character of two bytes. -/
theorem excerpt_points_at_fault_unclosed :
    let source := "(Ä\n é(B\n"
    let f : Fault := .unclosed ⟨7, 8⟩
    Faulty source f ∧ ∃ loc, locate? source 7 = some loc ∧ loc.line = 2 ∧ loc.column = 4 ∧
      loc.text = " é(B".toList ∧ loc.carets? ⟨7, 8⟩ = some (3, 1) ∧
      (((source.toList.splitOn '\n').take 1).map fun line => byteLength line + 1).sum + 3 = 7 := by
  intro source f
  have hone : (readOne source).map (fun _ => ()) = .error f := by decide +kernel
  have hfaulty : Faulty source f := .one (by
    cases hread : readOne source with
    | error fault => rw [hread] at hone; cases hone; rfl
    | ok cells => rw [hread] at hone; cases hone)
  obtain ⟨loc, carets, hloc, hcarets, -, hlocated, rfl, -⟩ := excerpt_points_at_fault hfaulty
  have hplace : (locate? source 7).map (fun loc => (loc.line, loc.column, loc.text)) =
      some (2, 4, " é(B".toList) := by
    decide +kernel
  rw [show locate? source 7 = some loc from hloc] at hplace
  obtain ⟨hline, hcolumn, htext⟩ : loc.line = 2 ∧ loc.column = 4 ∧ loc.text = " é(B".toList := by
    simpa using hplace
  have hbyte := hlocated.byte
  rw [hline, hcolumn] at hbyte
  rw [hcolumn] at hcarets
  exact ⟨hfaulty, loc, hloc, hline, hcolumn, htext, hcarets, hbyte⟩

end Dialogue.Source
