import Dialogue.Proofs.Contents
import Dialogue.Proofs.Tokens

/-!
# Behind the end of a script

The empty list that ends a script ends with a parenthesis, and up to there neither the tokens
(`Source.lexemes_append`) nor the lists (`Reader.Reads.exists_closing`) depend on what is written
behind it. But all of a source is cut into tokens before any list is read.
-/

namespace Dialogue

open Source Source.Reader

namespace Source

variable {p : String} {ts used after : List Lexeme} {place : Span}

theorem isOk_tokenize_append (h : tokenize p = .ok ts) (t : String) :
    (tokenize (p ++ t)).isOk ↔ ∀ c ∈ t.toList, Text.isBlank c → isGap c := by
  have hp : ∀ c ∈ p.toList, Text.isBlank c → isGap c := by
    rw [← isOk_lexemes_iff 0, show lexemes 0 p.toList = .ok ts from h]
    rfl
  rw [tokenize, String.toList_append, isOk_lexemes_iff, List.forall_mem_append, and_iff_right hp]

theorem tokenize_append {t : String} (h : tokenize p = .ok (used ++ ⟨.closing, place⟩ :: after))
    (ht : tokenize (p ++ t) = .ok ts) : ∃ after', ts = used ++ ⟨.closing, place⟩ :: after' := by
  obtain ⟨stop, rest, hlocal⟩ := lexemes_append 0 p.toList h
  rw [tokenize, String.toList_append, hlocal] at ht
  obtain ⟨after', -, rfl⟩ := map_eq_ok.1 ht
  exact ⟨after', rfl⟩

end Source

namespace Script

/-- What is written behind a script is ignored if it can be cut into tokens, which takes that all white
space in it separates tokens. -/
theorem load_append {p : String} {script : Script} (h : load p = .ok script) (t : String) :
    load (p ++ t) = .ok script ↔ ∀ c ∈ t.toList, Text.isBlank c → isGap c := by
  obtain ⟨reader, hr, -⟩ := bind_eq_ok.1 h
  have hreader := mapError_eq_ok.1 hr
  obtain ⟨ts, hts, rfl⟩ := map_eq_ok.1 hreader
  rw [← isOk_tokenize_append hts t]
  cases ht : tokenize (p ++ t) with
  | error fault =>
    have herror : ofSource (p ++ t) = .error fault := by
      rw [ofSource, ht]
      rfl
    rw [load_of_error herror]
    exact ⟨nofun, nofun⟩
  | ok ts' =>
    refine iff_of_true ?_ rfl
    obtain ⟨greeting, body, after, hreads, hg, hb, -⟩ :=
      terminates_of_isOk_load hreader (by rw [h]; rfl)
    -- the lists up to the end of the script lie in the tokens up to its last parenthesis
    obtain ⟨used, place, rfl, hlocal⟩ := hreads.exists_closing (List.cons_ne_nil _ _)
    obtain ⟨after', rfl⟩ := tokenize_append hts ht
    have hreader' : ofSource (p ++ t) = .ok ⟨used ++ ⟨.closing, place⟩ :: after'⟩ := by
      rw [ofSource, ht]
      rfl
    rw [load_terminated hreader' (hlocal after') hg hb, ← load_terminated hreader hreads hg hb, h]

/-- A stray parenthesis and a list with a number that cannot be stored, which is not closed. -/
theorem load_append_litter :
    ∃ script, load "(HI)()" = .ok script ∧ load ("(HI)()" ++ ") (4294967296") = .ok script := by
  have hgaps : ∀ c ∈ ") (4294967296".toList, Text.isBlank c → isGap c := by
    rw [← isOk_lexemes_iff 0]
    decide +kernel
  obtain ⟨script, h⟩ := exists_of_isOk (show (load "(HI)()").isOk by decide +kernel)
  exact ⟨script, h, (load_append h _).2 hgaps⟩

/-- A no-break space is white space, but separates no tokens. -/
theorem load_append_no_break_space :
    ∃ script, load "(HI)()" = .ok script ∧
      load ("(HI)()" ++ "\u00a0") = .error (.source (.strayBlank ⟨6, 8⟩ '\u00a0')) := by
  have ht : tokenize ("(HI)()" ++ "\u00a0") = .error (.strayBlank ⟨6, 8⟩ '\u00a0') := by decide +kernel
  have herror : ofSource ("(HI)()" ++ "\u00a0") = .error (.strayBlank ⟨6, 8⟩ '\u00a0') := by
    rw [ofSource, ht]
    rfl
  obtain ⟨script, h⟩ := exists_of_isOk (show (load "(HI)()").isOk by decide +kernel)
  exact ⟨script, h, load_of_error herror⟩

end Script

end Dialogue
