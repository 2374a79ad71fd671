import Dialogue.Proofs.Printing

/-!
# How a reader comes to rest

A call of a reader takes tokens (`Takes`) or leaves everything as it was, either because the source is at its
end (`Done`) or because the token in front cannot start a list (`Stray`). A call that leaves everything as it
was is repeated by all later ones. One that takes tokens takes two of them or more (`length_fill_lt`), so that
a reader is at rest before it has been called as often as there are tokens (`comes_to_rest`).
-/

namespace Dialogue.Source

variable {source : String} {ts : List Lexeme} {place : Span}

theorem fill_cons_suffix (outer : List OpenList) (inner : OpenList) (x : Lexeme) (ts : List Lexeme) :
    (fill outer inner (x :: ts)).2 <:+ ts := by
  rcases x with ⟨_ | _ | _ | _ | _ | _, place⟩
  case number n => cases n <;> simp only [fill, fill_suffix, List.suffix_refl]
  case closing => cases outer <;> simp only [fill, fill_suffix, List.suffix_refl]
  all_goals simp only [fill, fill_suffix, List.suffix_refl]

theorem length_fill_lt (h : Ended ts) (outer : List OpenList) (inner : OpenList) :
    (fill outer inner ts).2.length < ts.length := by
  obtain ⟨_ | ⟨x, body⟩, place, rfl, -⟩ := h
  · exact Nat.lt_add_one_of_le (fill_cons_suffix outer inner _ []).length_le
  · exact Nat.lt_add_one_of_le (fill_cons_suffix outer inner x _).length_le

namespace Reader

variable {r : Reader}

/-- The next call takes tokens, whatever it gives. -/
def Takes (r : Reader) : Prop := ∃ used, used ≠ [] ∧ r.rest = used ++ r.next.2.rest

/-- The next call finds the source at its end. -/
def Done (r : Reader) : Prop := r.next = (.ok none, r)

/-- The next call finds a token that cannot start a list, and does not take that either. -/
def Stray (place : Span) (r : Reader) : Prop := r.next = (.error (.notAList place), r)

theorem takes_opening (place : Span) (ts : List Lexeme) : Takes ⟨⟨.opening, place⟩ :: ts⟩ := by
  obtain ⟨used, hused⟩ := fill_suffix [] ⟨place, []⟩ ts
  exact ⟨⟨.opening, place⟩ :: used, nofun, congrArg (_ :: ·) hused.symm⟩

theorem stray_of_token {x : Lexeme} (hopen : x.token ≠ .opening) (hfinish : x.token ≠ .finish)
    (ts : List Lexeme) : Stray x.place ⟨x :: ts⟩ := by
  rcases x with ⟨_ | _ | _ | _ | _ | _, place⟩
  case opening => exact absurd rfl hopen
  case finish => exact absurd rfl hfinish
  all_goals rfl

theorem next_cases (r : Reader) :
    (∃ place ts, r = ⟨⟨.opening, place⟩ :: ts⟩) ∨ r.Done ∨
      ∃ x ∈ r.rest.head?, x.token ≠ .opening ∧ x.token ≠ .finish ∧ r.Stray x.place := by
  rcases r with ⟨_ | ⟨⟨token, place⟩, ts⟩⟩
  · exact .inr (.inl rfl)
  · by_cases hopen : token = .opening
    · rw [hopen]
      exact .inl ⟨place, ts, rfl⟩
    · by_cases hfinish : token = .finish
      · rw [hfinish]
        exact .inr (.inl rfl)
      · exact .inr (.inr ⟨⟨token, place⟩, rfl, hopen, hfinish, stray_of_token hopen hfinish ts⟩)

theorem Done.next_eq (h : r.Done) : r.next.2 = r := congrArg Prod.snd h

theorem Stray.next_eq (h : r.Stray place) : r.next.2 = r := congrArg Prod.snd h

theorem Takes.next_ne (h : r.Takes) : r.next.2 ≠ r := by
  obtain ⟨used, hne, hrest⟩ := h
  intro hr
  rw [hr] at hrest
  exact hne (List.self_eq_append_left.1 hrest)

theorem Done.not_stray (h : r.Done) (place : Span) : ¬ r.Stray place := by
  intro hs
  cases (h.symm.trans hs : ((.ok none, r) : Except Fault (Option (List Datum)) × Reader) = _)

theorem stray_iff : r.Stray place ↔
    ∃ x ∈ r.rest.head?, x.place = place ∧ x.token ≠ .opening ∧ x.token ≠ .finish := by
  constructor
  · intro h
    rcases r.next_cases with ⟨place', ts, rfl⟩ | hd | ⟨x, hx, hopen, hfinish, hs⟩
    · exact absurd h.next_eq (takes_opening place' ts).next_ne
    · exact absurd h (hd.not_stray place)
    · cases (hs.symm.trans h : (_, r) = (_, r))
      exact ⟨x, hx, rfl, hopen, hfinish⟩
  · rintro ⟨x, hx, rfl, hopen, hfinish⟩
    rcases r with ⟨_ | ⟨y, ts⟩⟩ <;> cases hx
    exact stray_of_token hopen hfinish ts

theorem takes_iff : r.Takes ↔ ¬ r.Done ∧ ∀ place, ¬ r.Stray place := by
  refine ⟨fun h => ⟨?_, ?_⟩, ?_⟩
  · intro hd
    exact h.next_ne hd.next_eq
  · intro place hs
    exact h.next_ne hs.next_eq
  · rintro ⟨hd, hs⟩
    rcases r.next_cases with ⟨place, ts, rfl⟩ | h | ⟨x, -, -, -, h⟩
    · exact takes_opening place ts
    · exact absurd h hd
    · exact absurd h (hs x.place)

/-! ### Calls in a row -/

theorem called_add (r : Reader) (n m : Nat) : r.called (n + m) = (r.called n).called m := by
  induction m with
  | zero => rfl
  | succ m ih => exact congrArg (fun r => r.next.2) ih

theorem called_succ (r : Reader) (n : Nat) : r.called (n + 1) = r.next.2.called n := by
  rw [Nat.add_comm, called_add]
  rfl

theorem called_eq_self (h : r.next.2 = r) (n : Nat) : r.called n = r := by
  induction n with
  | zero => rfl
  | succ n ih => rw [called_succ, h, ih]

theorem Done.called (h : r.Done) (n : Nat) : (r.called n).Done := by
  rwa [called_eq_self h.next_eq]

theorem Stray.called (h : r.Stray place) (n : Nat) : (r.called n).Stray place := by
  rwa [called_eq_self h.next_eq]

/-- What a call leaves when it takes a list or a part of one. -/
theorem next_opening (h : Ended ts) (place : Span) :
    (next ⟨⟨.opening, place⟩ :: ts⟩).2.rest.length + 1 ≤ ts.length ∧
      ((next ⟨⟨.opening, place⟩ :: ts⟩).2.rest = [] ∨ Ended (next ⟨⟨.opening, place⟩ :: ts⟩).2.rest) := by
  obtain ⟨used, hused⟩ := fill_suffix [] ⟨place, []⟩ ts
  exact ⟨length_fill_lt h [] ⟨place, []⟩, (hused ▸ h).of_append⟩

/-- The run of a reader: call by call it takes tokens, and then it is at rest. -/
theorem comes_to_rest (r : Reader) (h : r.rest = [] ∨ Ended r.rest) :
    ∃ n, 2 * n ≤ r.rest.length ∧ (∀ m < n, (r.called m).Takes) ∧
      ((r.called n).Done ∨ ∃ place, (r.called n).Stray place) := by
  induction hl : r.rest.length using Nat.strong_induction_on generalizing r with
  | h l ih =>
    rcases r.next_cases with ⟨place, ts, rfl⟩ | hrest
    · obtain ⟨-, hts⟩ := (h.resolve_left nofun).tail nofun
      obtain ⟨hshort, hleft⟩ := next_opening hts place
      rw [List.length_cons] at hl
      obtain ⟨n, hn, hbefore, hrest⟩ := ih _ (by omega) _ hleft rfl
      refine ⟨n + 1, by omega, ?_, by rwa [called_succ]⟩
      rintro (_ | m) hm
      · exact takes_opening place ts
      · rw [called_succ]
        exact hbefore m (by omega)
    · exact ⟨0, Nat.zero_le _, nofun, hrest.imp_right fun ⟨x, _, _, _, hs⟩ => ⟨x.place, hs⟩⟩

/-- Wherever a reader stands in a source, a call takes tokens unless the source is at its end or the token in
front cannot start a list; and before it has been called as often as the source has tokens it is at rest for
ever, either at the end or in front of such a token. So it reaches the end exactly if it never meets one. -/
theorem calls_come_to_rest (h : tokenize source = .ok ts) (r : Reader) (hr : r.rest <:+ ts) :
    (r.Takes ↔ ¬ r.Done ∧ ∀ place, ¬ r.Stray place) ∧
    (∀ place, r.Stray place ↔
      ∃ x ∈ r.rest.head?, x.place = place ∧ x.token ≠ .opening ∧ x.token ≠ .finish) ∧
    (∃ n < ts.length, (∀ m < n, (r.called m).Takes) ∧
      ((∀ m, (r.called (n + m)).Done) ∨ ∃ place, ∀ m, (r.called (n + m)).Stray place)) ∧
    ((∃ n < ts.length, ∀ m, (r.called (n + m)).Done) ↔ ∀ n place, ¬ (r.called n).Stray place) := by
  have hts : Ended ts := ended_of_lexemes h
  have hne : 0 < ts.length := by
    obtain ⟨body, place, rfl, -⟩ := hts
    simp
  have hrun : ∃ n < ts.length, (∀ m < n, (r.called m).Takes) ∧
      ((∀ m, (r.called (n + m)).Done) ∨ ∃ place, ∀ m, (r.called (n + m)).Stray place) := by
    obtain ⟨used, hused⟩ := hr
    obtain ⟨n, hn, hbefore, hrest⟩ := r.comes_to_rest (hused ▸ hts).of_append
    have hle : r.rest.length ≤ ts.length := by rw [← hused, List.length_append]; omega
    refine ⟨n, by omega, hbefore, ?_⟩
    simp only [called_add]
    rcases hrest with hd | ⟨place, hs⟩
    · exact .inl hd.called
    · exact .inr ⟨place, hs.called⟩
  refine ⟨takes_iff, fun _ => stray_iff, hrun, ?_, ?_⟩
  · rintro ⟨n, -, hd⟩ m place hs
    have hdone := hd m
    rw [Nat.add_comm, called_add] at hdone
    exact hdone.not_stray place (hs.called n)
  · intro hs
    obtain ⟨n, hn, -, hd | ⟨place, hstray⟩⟩ := hrun
    · exact ⟨n, hn, hd⟩
    · exact absurd (hstray 0) (hs n place)

/-- Two faults in a row, of which the second takes what is left; the end is found by the third call. -/
theorem calls_come_to_rest_faults : ∃ r : Reader, Reader.ofSource "(4294967296 (B" = .ok r ∧
    r.next.1 = .error (.hugeNumber ⟨1, 11⟩) ∧ (r.called 1).next.1 = .error (.unclosed ⟨12, 13⟩) ∧
    (∀ n place, ¬ (r.called n).Stray place) ∧ ∃ n < 5, ∀ m, (r.called (n + m)).Done := by
  let ts : List Lexeme := [⟨.opening, ⟨0, 1⟩⟩, ⟨.number none, ⟨1, 11⟩⟩, ⟨.opening, ⟨12, 13⟩⟩,
    ⟨.word "B", ⟨13, 14⟩⟩, ⟨.finish, ⟨14, 14⟩⟩]
  have htokens : tokenize "(4294967296 (B" = .ok ts := by with_unfolding_all rfl
  obtain ⟨-, -, -, hend⟩ := calls_come_to_rest htokens ⟨ts⟩ (List.suffix_refl ts)
  have hdone : ∃ n < ts.length, ∀ m, ((⟨ts⟩ : Reader).called (n + m)).Done := by
    have hnil : Done (called ⟨ts⟩ 2) := rfl
    refine ⟨2, by decide, fun m => ?_⟩
    rw [called_add]
    exact hnil.called m
  exact ⟨⟨ts⟩, congrArg (Except.map Reader.mk) htokens, rfl, rfl, hend.1 hdone, hdone⟩

/-- A parenthesis that closes nothing is found by every call, and taken by none. -/
theorem stray_token_is_never_taken : ∃ ts place, tokenize ")" = .ok ts ∧ ts.length = 2 ∧
    ¬ Takes ⟨ts⟩ ∧ ∀ n, Stray place (called ⟨ts⟩ n) ∧ ¬ Done (called ⟨ts⟩ n) := by
  have hstray : Stray ⟨0, 1⟩ ⟨[⟨.closing, ⟨0, 1⟩⟩, ⟨.finish, ⟨1, 1⟩⟩]⟩ := rfl
  refine ⟨_, ⟨0, 1⟩, by with_unfolding_all rfl, rfl, fun h => h.next_ne hstray.next_eq, fun n => ?_⟩
  exact ⟨hstray.called n, fun h => h.not_stray _ (hstray.called n)⟩

end Reader

end Dialogue.Source
