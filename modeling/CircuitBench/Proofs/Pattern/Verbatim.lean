import CircuitBench.Proofs.Pattern.Spelling

/-!
# Texts that a pattern finds again

Most characters stand for themselves in a written pattern.  Of the others a few do no harm to a
search for the text that was written.  A dot stands for a dot too.  A bar begins another
alternative, but what stands before it is found where the text begins.  An opening brace stands for
itself if no brace closes it.

`exists_parse_verbatim`: a pattern that begins with such a text is read, and finds the text before
whatever the rest of the pattern finds.
-/

namespace CircuitBench.Pattern

/-- the characters that do no harm -/
def isVerbatim (c : Char) : Bool := decide (c ∉ ['[', '*', '+', '?', '^', '$', '(', ')', '\\'])

theorem isVerbatim_of_isNameChar {c : Char} (hc : isNameChar c = true) : isVerbatim c = true := by
  have hn {d : Char} (hd : isNameChar d = false) := ne_of_isNameChar hc hd
  simp only [isVerbatim, List.mem_cons, List.not_mem_nil, or_false, not_or, decide_eq_true_eq]
  exact ⟨hn rfl, hn rfl, hn rfl, hn rfl, hn rfl, hn rfl, hn rfl, hn rfl, hn rfl⟩

def setOf (c : Char) : CharSet := if c = '.' then .inLine else .single ⟨false, false⟩ c.toNat

theorem holds_setOf (c : Char) : (setOf c).holds c = true := by
  unfold setOf
  split
  · rename_i hc
    rw [hc]
    decide
  · rw [CharSet.holds_single_exact, decide_eq_true_iff]

def spellSets (cs : List Char) (p : Pattern) : Pattern :=
  cs.foldr (fun c q => .seq (.one (setOf c)) q) p

theorem spellSets_cons (c : Char) (cs : List Char) (p : Pattern) :
    spellSets (c :: cs) p = .seq (.one (setOf c)) (spellSets cs p) := rfl

/-- there is no dot in a name -/
theorem spellSets_name {cs : List Char} (hcs : ∀ c ∈ cs, isNameChar c = true) (p : Pattern) :
    spellSets cs p = spell cs p := by
  induction cs with
  | nil => rfl
  | cons c cs ih =>
    have hdot : c ≠ '.' := ne_of_isNameChar (hcs c List.mem_cons_self) rfl
    rw [spellSets_cons, ih fun d hd => hcs d (List.mem_cons_of_mem c hd), setOf, if_neg hdot]
    rfl

theorem isSome_run_spellSets {text : Array Char} {p : Pattern} {next : Next} {cs rest : List Char}
    {s : Spot} (h : text.toList.drop s.place = cs ++ rest)
    (hp : (run text p next (s.after cs.length)).isSome = true) :
    (run text (spellSets cs p) next s).isSome = true := by
  induction cs generalizing s with
  | nil => exact hp
  | cons c cs ih =>
    have hrest : text.toList.drop (s.after 1).place = cs ++ rest := drop_after (u := [c]) h
    rw [spellSets_cons, run_seq, reads_one]
    refine ⟨[c], cs ++ rest, h, ⟨c, rfl, holds_setOf c⟩, ih hrest ?_⟩
    rwa [List.length_singleton, Spot.after_after, Nat.add_comm]

theorem check_spellSets (cs : List Char) {p : Pattern} (hp : p.check false = .ok ()) :
    (spellSets cs p).check false = .ok () := by
  induction cs with
  | nil => exact hp
  | cons c cs ih => exact ih

namespace Reading

def verbatimItem (c : Char) : Item := ⟨.other, .one (setOf c)⟩

theorem plainItem_eq {c : Char} (h1 : c ≠ '^') (h2 : c ≠ '$') :
    plainItem [] c = verbatimItem c := by
  unfold plainItem verbatimItem setOf
  split
  · rfl
  · exact absurd rfl h1
  · exact absurd rfl h2
  · rename_i hdot _ _
    rw [if_neg hdot]
    rfl

theorem sequence_append (items : List Item) (cs : List Char) :
    sequence (items ++ (cs.map verbatimItem).reverse) = spellSets cs (sequence items) := by
  unfold sequence
  rw [List.foldl_append, List.foldl_reverse, List.foldr_map]
  rfl

/-! ## braces that stand for themselves -/

theorem run_accept (c : Char) (ts : List Token) :
    (accept c).run (fresh ts) = (if ts.head? = some (.plain c) then .ok (true, fresh ts.tail)
      else .ok (false, fresh ts) : Except Failure _) := by
  rw [accept, StateT.run_bind, run_peek, ok_bind]
  split <;> rfl

theorem exists_run_takeChars (p : Char → Bool) (count : Nat) (ts : List Token) :
    ∃ ds us, (takeChars p count).run (fresh ts) = (.ok (ds, fresh us) : Except Failure _) ∧
      us <:+ ts := by
  induction count generalizing ts with
  | zero => exact ⟨[], ts, rfl, List.suffix_refl ts⟩
  | succ count ih =>
    have hstop : ∀ ts : List Token, ts <:+ ts := List.suffix_refl
    cases ts with
    | nil => exact ⟨[], [], rfl, hstop _⟩
    | cons t ts =>
      cases t with
      | escaped c => exact ⟨[], _, rfl, hstop _⟩
      | plain c =>
        rw [takeChars, StateT.run_bind, run_peek, ok_bind]
        show ∃ ds us, StateT.run (if p c = true then _ else _) (fresh (.plain c :: ts)) = _ ∧ _
        cases hc : p c with
        | false => exact ⟨[], _, rfl, hstop _⟩
        | true =>
          obtain ⟨ds, us, htaken, hus⟩ := ih ts
          refine ⟨c :: ds, us, ?_, hus.trans (List.suffix_cons _ _)⟩
          rw [if_pos rfl, StateT.run_bind, run_skip, ok_bind, StateT.run_bind, htaken]
          rfl

theorem run_takeBounds? {ts : List Token} (h : .plain '\x7d' ∉ ts) :
    takeBounds?.run (fresh ts) = (.ok (none, fresh ts) : Except Failure _) := by
  have hhead {us : List Token} (hus : us <:+ ts) : us.head? ≠ some (.plain '\x7d') := by
    intro heq
    exact h (hus.mem (List.mem_of_head? heq))
  have hget : StateT.run get (fresh ts) = (.ok (fresh ts, fresh ts) : Except Failure _) := rfl
  have hspan : StateT.run spanLeft (fresh ts)
      = (.ok ((written ts).length, fresh ts) : Except Failure _) := rfl
  obtain ⟨ds, us, htaken, hus⟩ := exists_run_takeChars Text.isAsciiDigit ts.length ts
  rw [takeBounds?, StateT.run_bind, hget, ok_bind, StateT.run_bind, hspan, ok_bind]
  dsimp only
  rw [show (fresh ts).left = ts from rfl, if_neg (hhead (List.suffix_refl ts)), StateT.run_bind,
    htaken, ok_bind, StateT.run_bind, run_accept]
  -- there may be a second number, but no closing brace after it
  split
  · obtain ⟨ds', us', htaken', hus'⟩ := exists_run_takeChars Text.isAsciiDigit ts.length us.tail
    rw [ok_bind, if_pos rfl, StateT.run_bind, htaken', ok_bind, StateT.run_bind, run_accept,
      if_neg (hhead (hus'.trans ((List.tail_suffix us).trans hus)))]
    rfl
  · rw [ok_bind, if_neg Bool.false_ne_true, StateT.run_bind, StateT.run_pure, pure_bind,
      StateT.run_bind, run_accept, if_neg (hhead hus)]
    rfl

/-! ## sequences and alternatives -/

section
variable {atStart : Bool} (fuel : Nat) (items : List Item) {ts : List Token}

theorem takeSequence_bar :
    (takeSequence (fuel + 1) [] atStart items).run (fresh (.plain '|' :: ts))
      = .ok (sequence items, fresh (.plain '|' :: ts)) := by
  rw [takeSequence, StateT.run_bind, run_peek]
  rfl

theorem takeSequence_brace (h : .plain '\x7d' ∉ ts) :
    (takeSequence (fuel + 1) [] atStart items).run (fresh (.plain '\x7b' :: ts))
      = (takeSequence fuel [] atStart (verbatimItem '\x7b' :: items)).run (fresh ts) := by
  have hrepetition : (takeRepetition [] '\x7b' items).run (fresh ts)
      = .ok (verbatimItem '\x7b' :: items, fresh ts) := by
    have hspan : StateT.run spanLeft (fresh ts)
        = (.ok ((written ts).length, fresh ts) : Except Failure _) := rfl
    rw [takeRepetition, StateT.run_bind, hspan, ok_bind]
    show StateT.run (takeBounds? >>= _) (fresh ts) = _
    rw [StateT.run_bind, run_takeBounds? h]
    rfl
  simp [takeSequence, run_peek, run_skip, ok_bind, hrepetition]

/-- a reader after a text without bars -/
theorem takeSequence_verbatim {cs : List Char} (hcs : ∀ c ∈ cs, isVerbatim c = true ∧ c ≠ '|')
    (hbrace : '\x7b' ∉ cs ∨ .plain '\x7d' ∉ cs.map .plain ++ ts) :
    (takeSequence (fuel + cs.length) [] atStart items).run (fresh (cs.map .plain ++ ts))
      = (takeSequence fuel [] atStart ((cs.map verbatimItem).reverse ++ items)).run (fresh ts) := by
  induction cs generalizing items with
  | nil => rfl
  | cons c cs ih =>
    obtain ⟨hverbatim, hbar⟩ := hcs c List.mem_cons_self
    simp only [isVerbatim, List.mem_cons, List.not_mem_nil, or_false, not_or,
      decide_eq_true_eq] at hverbatim
    have hrest : '\x7b' ∉ cs ∨ .plain '\x7d' ∉ cs.map .plain ++ ts :=
      hbrace.imp (fun h hm => h (List.mem_cons_of_mem c hm))
        fun h hm => h (List.mem_cons_of_mem _ hm)
    have ih := ih (verbatimItem c :: items) (fun d hd => hcs d (List.mem_cons_of_mem c hd)) hrest
    have hstep : (takeSequence (fuel + cs.length + 1) [] atStart items).run
        (fresh (.plain c :: (cs.map .plain ++ ts)))
          = (takeSequence (fuel + cs.length) [] atStart (verbatimItem c :: items)).run
              (fresh (cs.map .plain ++ ts)) := by
      by_cases hc : c = '\x7b'
      · subst hc
        have hclosed := hbrace.resolve_left fun h => h List.mem_cons_self
        exact takeSequence_brace _ _ fun h => hclosed (List.mem_cons_of_mem _ h)
      · rw [takeSequence_plain _ _ (by simp [hverbatim, hbar, hc]),
          plainItem_eq hverbatim.2.2.2.2.1 hverbatim.2.2.2.2.2.1]
    show (takeSequence (fuel + cs.length + 1) [] atStart items).run
      (fresh (.plain c :: (cs.map .plain ++ ts))) = _
    rw [hstep, ih, List.map_cons, List.reverse_cons, List.append_assoc]
    rfl

end

section
variable {first : Bool} {fuel : Nat} {ts us : List Token} {p q : Pattern}

theorem takeAlternatives_last
    (hp : (takeSequence fuel [] first []).run (fresh ts) = .ok (p, fresh [])) :
    (takeAlternatives (fuel + 1) [] true first).run (fresh ts) = .ok (p, fresh []) := by
  rw [takeAlternatives, StateT.run_bind, Bool.true_and, hp]
  rfl

theorem takeAlternatives_bar
    (hp : (takeSequence fuel [] first []).run (fresh ts) = .ok (p, fresh (.plain '|' :: us)))
    (hq : (takeAlternatives fuel [] true false).run (fresh us) = .ok (q, fresh [])) :
    (takeAlternatives (fuel + 1) [] true first).run (fresh ts) = .ok (.alt p q, fresh []) := by
  have hget : StateT.run get (fresh us) = (.ok (fresh us, fresh us) : Except Failure _) := rfl
  rw [takeAlternatives, StateT.run_bind, Bool.true_and, hp, ok_bind, StateT.run_bind, run_accept,
    List.head?_cons, if_pos rfl, ok_bind, if_pos rfl, List.tail_cons, StateT.run_bind, hget,
    ok_bind]
  show StateT.run (takeAlternatives fuel [] true false >>= _) (fresh us) = _
  rw [StateT.run_bind, hq]
  rfl

end

/-- what follows the text: its tokens are read as `items`, which find `tail` -/
structure Ending (rest : List Token) (items : List Item) (tail : List Char) (k : Nat) : Prop where
  reads : ∀ (atStart : Bool) (fuel : Nat) (before : List Item),
    (takeSequence (fuel + k) [] atStart before).run (fresh rest)
      = .ok (sequence (items ++ before), fresh [])
  closing : .plain '\x7d' ∉ rest
  check : (sequence items).check false = .ok ()
  finds : ∀ (text : Array Char) (s : Spot), text.toList.drop s.place = tail →
    (run text (sequence items) some s).isSome = true

theorem notMem_tokens {d : Char} {cs : List Char} {rest : List Token} (hcs : d ∉ cs)
    (hrest : .plain d ∉ rest) : .plain d ∉ cs.map .plain ++ rest := by
  intro h
  rcases List.mem_append.1 h with h | h
  · obtain ⟨c, hc, he⟩ := List.mem_map.1 h
    exact hcs (Token.plain.inj he ▸ hc)
  · exact hrest h

section
variable (atStart : Bool) {fuel : Nat} {cs : List Char}
  (hcs : ∀ c ∈ cs, isVerbatim c = true ∧ c ≠ '|')
include hcs

/-- a text up to a bar -/
theorem takeSequence_upTo_bar {ts : List Token}
    (hbrace : '\x7b' ∉ cs ∨ .plain '\x7d' ∉ cs.map .plain ++ .plain '|' :: ts)
    (hfuel : cs.length < fuel) :
    (takeSequence fuel [] atStart []).run (fresh (cs.map .plain ++ .plain '|' :: ts))
      = .ok (spellSets cs .empty, fresh (.plain '|' :: ts)) := by
  have hl : fuel = (fuel - cs.length - 1 + 1) + cs.length := by omega
  rw [hl, takeSequence_verbatim _ _ hcs hbrace, takeSequence_bar, List.append_nil]
  exact congrArg (fun p => Except.ok (p, _)) (sequence_append [] cs)

theorem takeSequence_ending {rest : List Token} {items : List Item} {tail : List Char} {k : Nat}
    (h : Ending rest items tail k) (hbrace : '\x7b' ∉ cs ∨ .plain '\x7d' ∉ cs.map .plain ++ rest)
    (hfuel : cs.length + k ≤ fuel) :
    (takeSequence fuel [] atStart []).run (fresh (cs.map .plain ++ rest))
      = .ok (spellSets cs (sequence items), fresh []) := by
  have hl : fuel = (fuel - cs.length - k + k) + cs.length := by omega
  rw [hl, takeSequence_verbatim _ _ hcs hbrace, h.reads, List.append_nil, sequence_append]

end

/-- the alternatives of a text and its ending; the first one finds the text from its beginning -/
theorem exists_takeAlternatives {rest : List Token} {items : List Item} {tail : List Char}
    {k : Nat} (h : Ending rest items tail k) {fuel : Nat} {cs : List Char}
    (hcs : ∀ c ∈ cs, isVerbatim c = true) (hbrace : '\x7b' ∉ cs ∨ '\x7d' ∉ cs)
    (hfuel : cs.length + k < fuel) (first : Bool) :
    ∃ p, (takeAlternatives fuel [] true first).run (fresh (cs.map .plain ++ rest))
        = .ok (p, fresh []) ∧ p.check false = .ok () ∧
      (run (cs ++ tail).toArray p some (.initial 0)).isSome = true := by
  induction fuel generalizing cs first with
  | zero => omega
  | succ fuel ih =>
    have hclosing := hbrace.imp_right fun h' => notMem_tokens h' h.closing
    by_cases hbar : '|' ∈ cs
    · obtain ⟨front, back, rfl, hfront⟩ := List.eq_append_cons_of_mem hbar
      have hback {c : Char} (hc : c ∈ back) : c ∈ front ++ '|' :: back :=
        List.mem_append_right _ (List.mem_cons_of_mem _ hc)
      have htokens : (front ++ '|' :: back).map Token.plain ++ rest
          = front.map .plain ++ .plain '|' :: (back.map .plain ++ rest) := by simp
      rw [htokens] at hclosing ⊢
      rw [List.length_append, List.length_cons] at hfuel
      obtain ⟨q, hq, hqcheck, _⟩ := ih (fun c hc => hcs c (hback hc))
        (hbrace.imp (fun h' hm => h' (hback hm)) fun h' hm => h' (hback hm)) (by omega) false
      have hp := takeSequence_upTo_bar first
        (fun c hc => ⟨hcs c (List.mem_append_left _ hc), fun hc' => hfront (hc' ▸ hc)⟩)
        (hclosing.imp_left fun h' hm => h' (List.mem_append_left _ hm))
        (show front.length < fuel by omega)
      refine ⟨_, takeAlternatives_bar hp hq, ?_, ?_⟩
      · show (spellSets front .empty).check false >>= (fun _ => q.check false) = .ok ()
        rw [check_spellSets front rfl, hqcheck]
        rfl
      · have hdrop : (front ++ '|' :: back ++ tail).toArray.toList.drop (Spot.initial 0).place
            = front ++ ('|' :: back ++ tail) := by
          simp [Spot.initial]
        rw [run_alt, Option.isSome_or, isSome_run_spellSets hdrop rfl, Bool.true_or]
    · have hp := takeSequence_ending first
        (fun c hc => ⟨hcs c hc, fun hc' => hbar (hc' ▸ hc)⟩) h hclosing (Nat.le_of_lt_succ hfuel)
      refine ⟨_, takeAlternatives_last hp, check_spellSets cs h.check, ?_⟩
      have hdrop : (cs ++ tail).toArray.toList.drop (Spot.initial 0).place = cs ++ tail := rfl
      exact isSome_run_spellSets hdrop (h.finds _ _ (drop_after hdrop))

end Reading

open Reading in
/-- a pattern that begins with such a text can be read, and finds the text -/
theorem exists_parse_verbatim {rest : List Token} {items : List Item} {tail : List Char} {k : Nat}
    (h : Ending rest items tail k) (hk : k ≤ 4 * rest.length + 3) {source : String}
    {cs : List Char} (hcs : ∀ c ∈ cs, isVerbatim c = true) (hbrace : '\x7b' ∉ cs ∨ '\x7d' ∉ cs)
    (hts : tokens? source.toList = some (cs.map .plain ++ rest)) :
    ∃ p, parse source = .ok p ∧ p.occursIn (cs ++ tail) = true := by
  have hfuel : cs.length + k < 4 * (cs.map Token.plain ++ rest).length + 4 := by
    rw [List.length_append, List.length_map]
    omega
  obtain ⟨p, hp, hcheck, hfound⟩ := exists_takeAlternatives h hcs hbrace hfuel true
  refine ⟨p, parse_of_alternatives hts hp hcheck, ?_⟩
  unfold occursIn
  rw [occursFrom_iff]
  exact ⟨0, le_rfl, by omega, hfound⟩

end CircuitBench.Pattern
