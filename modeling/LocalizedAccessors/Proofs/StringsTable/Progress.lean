import LocalizedAccessors.Proofs.StringsTable.Reading

/-!
# Progress through a strings table

A statement takes at least one character, be it well formed or not, and leaves a suffix. None is
found exactly if there is nothing but blanks and comments, and then all of them are read, with a
last comment that has no end. So reading comes to an end within as many calls as the table has
characters, and one more that finds the end.
-/

namespace LocalizedAccessors.StringsTable

/-! ## Blanks and comments up to the end -/

/-- Blanks and comments, the last of which may be a comment that is cut off by the end. -/
inductive OnlyTrivia : List Char → Prop where
  | nil : OnlyTrivia []
  | openLine {body : List Char} (inLine : '\n' ∉ body) : OnlyTrivia ('/' :: '/' :: body)
  | openBlock {body : List Char} (unclosed : ¬['*', '/'] <:+: body) :
    OnlyTrivia ('/' :: '*' :: body)
  | cons (trivium : Trivium) {rest : List Char} :
    OnlyTrivia rest → OnlyTrivia (trivium.written ++ rest)

variable {cs : List Char}

theorem afterLine_of_notMem (h : '\n' ∉ cs) : afterLine cs = [] := by
  induction cs with
  | nil => rfl
  | cons c cs ih =>
    obtain ⟨hc, hcs⟩ := not_or.1 (mt List.mem_cons.2 h)
    rw [afterLine, if_neg (by simpa using Ne.symm hc), ih hcs]

theorem exists_line (h : '\n' ∈ cs) :
    ∃ body, '\n' ∉ body ∧ cs = body ++ '\n' :: afterLine cs := by
  obtain ⟨body, rest, rfl, hbody⟩ := List.eq_append_cons_of_mem h
  exact ⟨body, hbody, by rw [afterLine_append hbody]⟩

theorem afterBlock_of_not_isInfix (h : ¬['*', '/'] <:+: cs) : afterBlock cs = [] := by
  fun_induction afterBlock cs with
  | case1 => rfl
  | case2 rest => exact absurd ⟨[], rest, rfl⟩ h
  | case3 c rest _ ih => exact ih fun hinside ↦ h (hinside.trans (List.suffix_cons ..).isInfix)

/-- The first end of a comment, if there is one. -/
theorem exists_block (h : ['*', '/'] <:+: cs) :
    ∃ body, ¬['*', '/'] <:+: body ∧ cs = body ++ '*' :: '/' :: afterBlock cs := by
  fun_induction afterBlock cs with
  | case1 => simp at h
  | case2 rest => exact ⟨[], by simp, rfl⟩
  | case3 c rest hnot ih =>
    have hstart : ¬['*', '/'] <+: c :: rest := by
      rintro ⟨tail, htail⟩
      obtain ⟨hc, hrest⟩ := List.cons.inj htail
      exact hnot tail hc.symm hrest.symm
    obtain ⟨body, hbody, hrest⟩ := ih ((List.infix_cons_iff.1 h).resolve_left hstart)
    have hfront : c :: body <+: c :: rest :=
      List.cons_prefix_cons.2 ⟨rfl, hrest ▸ List.prefix_append ..⟩
    refine ⟨c :: body, ?_, congrArg (c :: ·) hrest⟩
    -- If an end began with this character, it would be the first one.
    intro hinside
    rcases List.infix_cons_iff.1 hinside with hbegins | hlater
    · exact hstart (hbegins.trans hfront)
    · exact hbody hlater

theorem OnlyTrivia.skipTrivia_eq_nil (trivia : OnlyTrivia cs) : skipTrivia cs = [] := by
  induction trivia with
  | nil => exact skipTrivia.eq_1
  | openLine hbody => rw [skipTrivia, afterLine_of_notMem hbody, skipTrivia]
  | openBlock hbody => rw [skipTrivia, afterBlock_of_not_isInfix hbody, skipTrivia]
  | cons trivium _ ih => rw [skipTrivia_trivium, ih]

theorem onlyTrivia_of_skipTrivia (h : skipTrivia cs = []) : OnlyTrivia cs := by
  -- A comment is complete and something follows it, or it is the last and has no end.
  fun_induction skipTrivia cs with
  | case1 => exact .nil
  | case2 rest ih =>
    by_cases hbreak : '\n' ∈ rest
    · obtain ⟨body, hbody, hrest⟩ := exists_line hbreak
      have htrivia := OnlyTrivia.cons (.line body hbody) (ih h)
      rw [Trivium.written, List.cons_append, List.cons_append, List.append_assoc,
        List.singleton_append, ← hrest] at htrivia
      exact htrivia
    · exact .openLine hbreak
  | case3 rest ih =>
    by_cases hclosed : ['*', '/'] <:+: rest
    · obtain ⟨body, hbody, hrest⟩ := exists_block hclosed
      have htrivia := OnlyTrivia.cons (.block body hbody) (ih h)
      rw [Trivium.written, List.cons_append, List.cons_append, List.append_assoc,
        List.cons_append, List.singleton_append, ← hrest] at htrivia
      exact htrivia
    · exact .openBlock hclosed
  | case4 c rest _ _ hblank ih => exact .cons (.blank c hblank) (ih h)
  | case5 => simp at h

theorem skipTrivia_eq_nil_iff : skipTrivia cs = [] ↔ OnlyTrivia cs :=
  ⟨onlyTrivia_of_skipTrivia, OnlyTrivia.skipTrivia_eq_nil⟩

/-! ## One call -/

/-- What a call leaves. Where it finds no statement, it has still skipped blanks and comments. -/
def unread (cs : List Char) : List Char :=
  match nextStatement? cs with
  | none => skipTrivia cs
  | some (_, rest) => rest

/-- How reading gets on with a call. -/
structure Advances (cs : List Char) : Prop where
  shorter : nextStatement? cs ≠ none → unread cs <:+ cs ∧ (unread cs).length < cs.length
  none_iff : nextStatement? cs = none ↔ OnlyTrivia cs
  exhausted : nextStatement? cs = none → unread cs = []

theorem advances (cs : List Char) : Advances cs where
  shorter h := by
    obtain ⟨⟨statement, rest⟩, hfound⟩ := Option.ne_none_iff_exists'.1 h
    obtain ⟨c, begun, hbegun, hrest⟩ := nextStatement?_suffix hfound
    have hbegins : c :: begun <:+ cs := hbegun ▸ skipTrivia_suffix cs
    rw [unread, hfound]
    exact ⟨hrest.trans ((List.suffix_cons ..).trans hbegins), nextStatement?_length_lt hfound⟩
  none_iff := nextStatement?_eq_none_iff.trans skipTrivia_eq_nil_iff
  exhausted h := by
    rw [unread, h]
    exact nextStatement?_eq_none_iff.1 h

/-! ## All calls -/

/-- The statements that are found in at most so many calls, if the last of them finds none. -/
def statementsWithin : Nat → List Char → Option (List Statement)
  | 0, _ => none
  | calls + 1, cs =>
    match nextStatement? cs with
    | none => some []
    | some (statement, rest) => (statementsWithin calls rest).map (statement :: ·)

/-- It takes one call more than there are statements. -/
theorem statementsWithin_eq (calls : Nat) (cs : List Char) : statementsWithin calls cs =
    if (statements cs).length < calls then some (statements cs) else none := by
  induction calls generalizing cs with
  | zero => rfl
  | succ calls ih =>
    rw [statementsWithin, statements_eq]
    cases nextStatement? cs with
    | none => rfl
    | some found =>
      simp only [ih, List.length_cons, Nat.add_lt_add_iff_right]
      split <;> rfl

example : statementsWithin 2 [';', ';'] = none ∧
    statementsWithin 3 [';', ';'] = some [.malformed, .malformed] := by cbv

theorem length_statements_le (cs : List Char) : (statements cs).length ≤ cs.length := by
  fun_induction statements cs with
  | case1 => exact Nat.zero_le _
  | case2 cs statement rest h ih => exact Nat.lt_of_le_of_lt ih (nextStatement?_length_lt h)

/-- Reading a table always gets on and comes to an end. A call that finds a statement leaves a
shorter suffix; it finds none only if nothing but blanks and comments is left, and then it leaves
nothing. So one call more than the text has characters is enough, and there are no more pairs than
characters. -/
theorem reading_ends (text : String) :
    (∀ cs, Advances cs) ∧
      ∃ found, statementsWithin (text.length + 1) (text.toList.dropWhile (· == '\ufeff')) =
          some found ∧
        pairs text = found.filterMap Statement.pair? ∧ (pairs text).length ≤ text.length := by
  let body := text.toList.dropWhile (· == '\ufeff')
  have hbody : body.length ≤ text.length := (List.dropWhile_suffix _).length_le
  have hfound : (statements body).length ≤ text.length :=
    Nat.le_trans (length_statements_le body) hbody
  refine ⟨advances, statements body, ?_, rfl, ?_⟩
  · rw [statementsWithin_eq, if_pos (Nat.lt_succ_of_le hfound)]
  · exact Nat.le_trans (List.length_filterMap_le _ _) hfound

end LocalizedAccessors.StringsTable
