import ShapeFlow.Proofs.Grammar

/-!
# How parsers end

A parser that is tried at a position of a sketch ends in one of three ways: it finds what it is for,
it refuses the first token, or it takes some tokens and then comes to a position that none of the
others leads on from. Every combinator keeps this account, together with the misses.

* `Sketch.Blames`: misses that come to one position.
* `Sketch.Blames.furthest`: **what is reported is what may follow at that position.**
* `Sketch.Ends`: the ways in which a parser can end.
* `Sketch.Ends.andThen`, `Sketch.ends_list`: sequences and lists in brackets.
-/

namespace ShapeFlow.Sketch

open Position ShapeFlow.Sketch.Parser

/-! ## Misses -/

section Misses

variable {place ts us : List Lexeme} {misses further : List Miss} {e : Expectation} {q : Position}

/-- What was looked for at a place, in order. -/
def notedAt (place : List Lexeme) (misses : List Miss) : List Expectation :=
  (misses.filter (·.rest = place)).map (·.expected)

/-- The misses lie before a place. -/
def Before (place : List Lexeme) (misses : List Miss) : Prop :=
  ∀ m ∈ misses, place.length < m.rest.length

/-- No miss lies beyond a place. -/
def UpTo (place : List Lexeme) (misses : List Miss) : Prop :=
  ∀ m ∈ misses, m.rest = place ∨ place.length < m.rest.length

@[simp] theorem notedAt_nil : notedAt place [] = [] := rfl

@[simp] theorem notedAt_here :
    notedAt place (⟨place, e⟩ :: misses) = e :: notedAt place misses := by
  simp [notedAt]

@[simp] theorem notedAt_append :
    notedAt place (misses ++ further) = notedAt place misses ++ notedAt place further := by
  simp [notedAt]

/-- What stands behind tokens is shorter than with them. -/
theorem length_lt_append (h : us ≠ []) (ts : List Lexeme) : ts.length < (us ++ ts).length := by
  have hpos := List.length_pos_iff.2 h
  rw [List.length_append]
  omega

theorem before_nil : Before place [] := fun _ h => absurd h List.not_mem_nil

theorem Before.append (h : Before place misses) (h' : Before place further) :
    Before place (misses ++ further) := fun m hm => (List.mem_append.1 hm).elim (h m) (h' m)

/-- What lies before a place lies before all later ones. -/
theorem Before.mono (h : Before ts misses) (hle : place.length ≤ ts.length) :
    Before place misses := fun m hm => Nat.lt_of_le_of_lt hle (h m hm)

theorem before_cons (h : place.length < ts.length) (h' : Before place misses) :
    Before place (⟨ts, e⟩ :: misses) := by
  intro m hm
  rcases List.mem_cons.1 hm with rfl | hm
  · exact h
  · exact h' m hm

/-- Nothing was looked for at a place that no miss has come to. -/
theorem Before.notedAt (h : Before place misses) : notedAt place misses = [] := by
  rw [Sketch.notedAt, List.map_eq_nil_iff, List.filter_eq_nil_iff]
  intro m hm hplace
  have hlt := h m hm
  rw [of_decide_eq_true hplace] at hlt
  omega

theorem Before.upTo (h : Before place misses) : UpTo place misses := fun m hm => Or.inr (h m hm)

theorem upTo_nil : UpTo place [] := before_nil.upTo

theorem UpTo.append (h : UpTo place misses) (h' : UpTo place further) :
    UpTo place (misses ++ further) := fun m hm => (List.mem_append.1 hm).elim (h m) (h' m)

theorem upTo_here (h : UpTo place misses) : UpTo place (⟨place, e⟩ :: misses) := by
  intro m hm
  rcases List.mem_cons.1 hm with rfl | hm
  · exact Or.inl rfl
  · exact h m hm

/-- Misses up to a place lie before any place that is further on. -/
theorem UpTo.before (h : UpTo ts misses) (hlt : place.length < ts.length) :
    Before place misses := by
  intro m hm
  rcases h m hm with rfl | hm
  · exact hlt
  · omega

/-- **Misses that come to one position**: none of them lies beyond a place, and what was looked for
there is what may follow at the position. -/
structure Blames (misses : List Miss) (place : List Lexeme) (q : Position) : Prop where
  upTo : UpTo place misses
  noted : (notedAt place misses).eraseDups = q.expectations

/-- What lies before the place does not matter. -/
theorem Blames.behind (h : Blames further place q) (hbefore : Before place misses) :
    Blames (misses ++ further) place q :=
  ⟨hbefore.upTo.append h.upTo, by rw [notedAt_append, hbefore.notedAt, List.nil_append, h.noted]⟩

/-- Misses before the place may also be noted later, when another choice is tried. -/
theorem Blames.append (h : Blames misses place q) (hbefore : Before place further) :
    Blames (misses ++ further) place q :=
  ⟨h.upTo.append hbefore.upTo, by rw [notedAt_append, hbefore.notedAt, List.append_nil, h.noted]⟩

/-- What misses up to a place come to: what was looked for there, each once, or a place before it
if nothing was. -/
theorem furthest_of_upTo (h : UpTo place misses) :
    (notedAt place misses = [] → ∀ known ∈ DeadEnd.furthest misses,
      place.length < known.rest.length) ∧
    (notedAt place misses ≠ [] →
      DeadEnd.furthest misses = some ⟨place, (notedAt place misses).eraseDups⟩) := by
  -- from the last miss on, as the misses are noted in their order
  induction misses using List.reverseRecOn with
  | nil => exact ⟨fun _ known hknown => absurd hknown (by simp [DeadEnd.furthest]), by simp⟩
  | append_singleton misses m ih =>
    obtain ⟨hnone, hsome⟩ := ih fun n hn => h n (List.mem_append_left _ hn)
    have hstep : DeadEnd.furthest (misses ++ [m]) = DeadEnd.note (DeadEnd.furthest misses) m :=
      List.foldl_concat ..
    obtain ⟨rest, e⟩ := m
    rcases h ⟨rest, e⟩ (by simp) with hrest | hlt
    · obtain rfl : rest = place := hrest
      have hnoted : notedAt rest (misses ++ [⟨rest, e⟩]) = notedAt rest misses ++ [e] := by simp
      rw [hnoted, hstep]
      refine ⟨fun hnil => absurd hnil (by simp), fun _ => ?_⟩
      by_cases hnil : notedAt rest misses = []
      · -- the first miss at its place
        rw [hnil]
        cases hknown : DeadEnd.furthest misses with
        | none => rfl
        | some known => simp [DeadEnd.note, hnone hnil known hknown, List.eraseDups_cons]
      · rw [hsome hnil, List.eraseDups_append]
        by_cases hmem : e ∈ notedAt rest misses <;>
          simp [DeadEnd.note, hmem, List.removeAll, List.eraseDups_cons]
    · have hnoted : notedAt place (misses ++ [⟨rest, e⟩]) = notedAt place misses := by
        have hbefore : Before place [⟨rest, e⟩] := before_cons hlt before_nil
        rw [notedAt_append, hbefore.notedAt, List.append_nil]
      rw [hnoted, hstep]
      have hlong : place.length < rest.length := hlt
      refine ⟨fun hnil known hknown => ?_, fun hne => ?_⟩
      · have hold := hnone hnil
        unfold DeadEnd.note at hknown
        split at hknown
        · obtain rfl := Option.some.inj hknown
          exact hlong
        · next old heq =>
          have := hold old heq
          split_ifs at hknown <;> obtain rfl := Option.some.inj hknown <;> simpa
      · rw [hsome hne, DeadEnd.note]
        dsimp only
        rw [if_neg (Nat.lt_asymm hlong), if_neg fun hhere => Nat.ne_of_gt hlong hhere.1]

/-- **What is reported is what the position expects.** -/
theorem Blames.furthest (h : Blames misses place q) :
    DeadEnd.furthest misses = some ⟨place, q.expectations⟩ := by
  have hne : notedAt place misses ≠ [] := by
    intro hnil
    have hnoted := h.noted
    rw [hnil] at hnoted
    cases q <;> exact absurd hnoted (by simp [expectations])
  rw [(furthest_of_upTo h.upTo).2 hne, h.noted]

end Misses

/-! ## Combinators -/

namespace Reply

variable {α β γ : Type} {a : α} {rest : List Lexeme} {misses further : List Miss} {reply : Reply α}

@[simp] theorem bind_some (next : α → List Lexeme → Reply β) :
    (⟨some (a, rest), misses⟩ : Reply α).bind next = (next a rest).after misses := rfl

@[simp] theorem bind_none (next : α → List Lexeme → Reply β) :
    (⟨none, misses⟩ : Reply α).bind next = ⟨none, misses⟩ := rfl

@[simp] theorem orElse_some {result : α × List Lexeme} (other : Unit → Reply α) :
    (⟨some result, misses⟩ : Reply α).orElse other = ⟨some result, misses⟩ := rfl

@[simp] theorem orElse_none (other : Unit → Reply α) :
    (⟨none, misses⟩ : Reply α).orElse other = (other ()).after misses := rfl

@[simp] theorem map_some (f : α → β) :
    (⟨some (a, rest), misses⟩ : Reply α).map f = ⟨some (f a, rest), misses⟩ := rfl

@[simp] theorem map_none (f : α → β) :
    (⟨none, misses⟩ : Reply α).map f = ⟨none, misses⟩ := rfl

@[simp] theorem after_mk {value : Option (α × List Lexeme)} :
    (⟨value, further⟩ : Reply α).after misses = ⟨value, misses ++ further⟩ := rfl

@[simp] theorem after_nil : reply.after [] = reply := rfl

@[simp] theorem after_after :
    (reply.after further).after misses = reply.after (misses ++ further) := by
  rw [after, after, after, List.append_assoc]

@[simp] theorem bind_after (next : α → List Lexeme → Reply β) :
    (reply.after misses).bind next = (reply.bind next).after misses := by
  obtain ⟨_ | ⟨a, rest⟩, further⟩ := reply
  · rfl
  · simp

@[simp] theorem bind_map (f : α → β) (next : β → List Lexeme → Reply γ) :
    (reply.map f).bind next = reply.bind fun a rest => next (f a) rest := by
  obtain ⟨_ | ⟨a, rest⟩, further⟩ := reply <;> rfl

@[simp] theorem map_after (f : α → β) :
    (reply.after misses).map f = (reply.map f).after misses := rfl

@[simp] theorem map_map (f : α → β) (g : β → γ) : (reply.map f).map g = reply.map (g ∘ f) := by
  obtain ⟨_ | ⟨a, rest⟩, further⟩ := reply <;> rfl

@[simp] theorem map_bind (next : α → List Lexeme → Reply β) (g : β → γ) :
    (reply.bind next).map g = reply.bind fun a rest => (next a rest).map g := by
  obtain ⟨_ | ⟨a, rest⟩, further⟩ := reply <;> rfl

end Reply

section Combinators

variable {α β γ : Type} {D : List Lexeme → α → Prop} {E : List Lexeme → β → Prop}
  {p q : Position} {others : List Token} {us ts : List Lexeme} {size : Nat}

/-- No token that may follow leads on from a position, and no line ends there. -/
structure Halts (q : Position) (rest : List Lexeme) : Prop where
  unfinished : q.ending? = none
  stops : ∀ l ∈ rest.head?, q.next? l = none

/-- The first token is none of some others. -/
def Opens (others : List Token) (us : List Lexeme) : Prop := ∀ l ∈ us.head?, l.token ∉ others

/-- **The ways in which a parser ends** that is tried at a position for what `D` derives, where
`others` may stand as well: it finds it; or it refuses the first token, and has looked for all that
may follow but the others; or it is stuck further on. -/
inductive Ends (D : List Lexeme → α → Prop) (p : Position) (others : List Token) :
    List Lexeme → Reply α → Prop where
  | found (us : List Lexeme) {rest : List Lexeme} {a : α} {misses : List Miss} :
      D us a → us ≠ [] → Opens others us → Before rest misses →
        Ends D p others (us ++ rest) ⟨some (a, rest), misses⟩
  | refused {ts : List Lexeme} (expected : List Expectation) :
      expected ++ others.map (fun t => .token t.render) = p.expectations →
        (∀ l ∈ ts.head?, p.next? l = none ∨ l.token ∈ others) →
          Ends D p others ts ⟨none, expected.map fun e => ⟨ts, e⟩⟩
  | stuck (us : List Lexeme) {rest : List Lexeme} {q : Position} {misses : List Miss} :
      us ≠ [] → Opens others us → p.advance? us = some q → Halts q rest → Blames misses rest q →
        Ends D p others (us ++ rest) ⟨none, misses⟩

variable {F : List Lexeme → γ → Prop} {P : Parser α} {Q : Parser β} {κ : α → Position}

/-- Which token comes first does not depend on what stands behind it. -/
theorem opens_append (hne : us ≠ []) (h : Opens others us) : Opens others (us ++ ts) := by
  obtain ⟨l, us, rfl⟩ := List.exists_cons_of_ne_nil hne
  exact h

theorem opens_nil : Opens [] us := fun _ _ => List.not_mem_nil

/-- One token. -/
theorem ends_one {accept : Lexeme → Option α} {e : Expectation}
    (haccept : ∀ l a, accept l = some a → D [l] a ∧ l.token ∉ others)
    (hrefuse : ∀ l, accept l = none → p.next? l = none ∨ l.token ∈ others)
    (hexpected : e :: others.map (fun t => .token t.render) = p.expectations)
    (size : Nat) (ts : List Lexeme) : Ends D p others ts (one accept e size ts) := by
  cases ts with
  | nil => exact .refused [e] hexpected (by simp)
  | cons l rest =>
    unfold one
    dsimp only
    cases ha : accept l with
    | some a =>
      obtain ⟨hD, hothers⟩ := haccept l a ha
      refine .found [l] hD (by simp) ?_ before_nil
      rintro _ ⟨⟩
      exact hothers
    | none =>
      refine .refused [e] hexpected ?_
      rintro _ ⟨⟩
      exact hrefuse l ha

/-- The token that is given, at its place. -/
def IsToken (t : Token) (ts : List Lexeme) (l : Lexeme) : Prop := l.token = t ∧ ts = [l]

/-- A single token is found or refused. -/
theorem ends_just {t : Token} (hrefuse : ∀ l : Lexeme, l.token ≠ t → p.next? l = none)
    (hexpected : [Expectation.token t.render] = p.expectations) (size : Nat) (ts : List Lexeme) :
    Ends (IsToken t) p [] ts (just t size ts) := by
  refine ends_one ?_ ?_ hexpected size ts
  · intro l a h
    split at h
    · next ht =>
      obtain rfl := Option.some.inj h
      exact ⟨⟨ht, rfl⟩, List.not_mem_nil⟩
    · cases h
  · intro l h
    split at h
    · cases h
    · next ht => exact Or.inl (hrefuse l ht)

/-- What is made of the result does not change how the parser ends. -/
theorem Ends.map {reply : Reply α} {f : α → β} (h : Ends D p others ts reply)
    (hf : ∀ us a, D us a → E us (f a)) : Ends E p others ts (reply.map f) := by
  cases h with
  | found us hD hne hopens hbefore => exact .found us (hf _ _ hD) hne hopens hbefore
  | refused expected hexpected hstops => exact .refused expected hexpected hstops
  | stuck us hne hopens hadvance hhalts hblames =>
    exact .stuck us hne hopens hadvance hhalts hblames

theorem mapWith_some {f : α → Span → β} {a : α} {rest : List Lexeme} {misses : List Miss}
    (h : P size ts = ⟨some (a, rest), misses⟩) :
    P.mapWith f size ts =
      ⟨some (f a (coveredSpan size (ts.take (ts.length - rest.length))), rest), misses⟩ := by
  rw [Parser.mapWith, h, Reply.bind_some, Reply.after_mk, List.append_nil]

/-- The bytes of what is found are those of its tokens. -/
theorem mapWith_found {f : α → Span → β} {a : α} {rest : List Lexeme} {misses : List Miss}
    (h : P size (us ++ rest) = ⟨some (a, rest), misses⟩) :
    P.mapWith f size (us ++ rest) = ⟨some (f a (coveredSpan size us), rest), misses⟩ := by
  rw [mapWith_some h]
  simp

theorem mapWith_none {f : α → Span → β} {misses : List Miss} (h : P size ts = ⟨none, misses⟩) :
    P.mapWith f size ts = ⟨none, misses⟩ := by
  rw [Parser.mapWith, h, Reply.bind_none]

/-- The span that is handed on is that of the tokens that were taken. -/
theorem Ends.mapWith {f : α → Span → β} (h : Ends D p others ts (P size ts))
    (hf : ∀ us a, us ≠ [] → D us a → E us (f a (coveredSpan size us))) :
    Ends E p others ts (P.mapWith f size ts) := by
  generalize hreply : P size ts = reply at h
  cases h with
  | found us hD hne hopens hbefore =>
    rw [mapWith_found hreply]
    exact .found us (hf us _ hne hD) hne hopens hbefore
  | refused expected hexpected hstops =>
    rw [mapWith_none hreply]
    exact .refused expected hexpected hstops
  | stuck us hne hopens hadvance hhalts hblames =>
    rw [mapWith_none hreply]
    exact .stuck us hne hopens hadvance hhalts hblames

theorem eraseDups_expectations (q : Position) : q.expectations.eraseDups = q.expectations := by
  cases q <;> rfl

/-- What is tried behind tokens that lead to a position: what it refuses, nothing else takes. -/
theorem Ends.behind {reply : Reply β} {g : β → γ} {misses : List Miss}
    (h : Ends E q [] ts reply) (hne : us ≠ []) (hopens : Opens others us)
    (hadvance : p.advance? us = some q) (hq : q.ending? = none) (hbefore : Before ts misses)
    (hF : ∀ vs b, E vs b → F (us ++ vs) (g b)) :
    Ends F p others (us ++ ts) ((reply.map g).after misses) := by
  cases h with
  | @found vs rest b further hE hvs _ hfurther =>
    rw [← List.append_assoc]
    exact .found (us ++ vs) (hF vs b hE) (by simp [hne]) (opens_append hne hopens)
      ((hbefore.mono (by simp)).append hfurther)
  | @refused _ expected hexpected hstops =>
    rw [List.map_nil, List.append_nil] at hexpected
    rw [Reply.map_none, Reply.after_mk]
    refine .stuck us hne hopens hadvance ⟨hq, fun l hl => (hstops l hl).resolve_right (by simp)⟩ ?_
    refine Blames.behind ⟨?_, ?_⟩ hbefore
    · intro m hm
      obtain ⟨e, -, rfl⟩ := List.mem_map.1 hm
      exact Or.inl rfl
    · have hnoted : notedAt ts (expected.map fun e => (⟨ts, e⟩ : Miss)) = expected := by
        simp [notedAt, List.filter_map, Function.comp_def]
      rw [hnoted, hexpected, eraseDups_expectations]
  | @stuck vs rest r further hvs _ hr hhalts hblames =>
    rw [← List.append_assoc]
    exact .stuck (us ++ vs) (by simp [hne]) (opens_append hne hopens)
      (advance?_trans hadvance hr) hhalts
      (hblames.behind (hbefore.mono (by simp)))

/-- **Sequences**: where the first parser finds something, the second one is tried at the position
behind it. -/
theorem Ends.andThen (h : Ends D p others ts (P size ts))
    (hQ : ∀ a rest, Ends E (κ a) [] rest (Q size rest))
    (hadvance : ∀ us a, D us a → p.advance? us = some (κ a))
    (hκ : ∀ a, (κ a).ending? = none) {F : List Lexeme → α × β → Prop}
    (hF : ∀ us a vs b, D us a → E vs b → F (us ++ vs) (a, b)) :
    Ends F p others ts (P.andThen Q size ts) := by
  unfold Parser.andThen
  generalize P size ts = reply at h ⊢
  cases h with
  | @found us rest a misses hD hne hopens hbefore =>
    exact (hQ a rest).behind hne hopens (hadvance us a hD) (hκ a) hbefore
      fun vs b hE => hF us a vs b hD hE
  | refused expected hexpected hstops => exact .refused expected hexpected hstops
  | stuck us hne hopens hadvance hhalts hblames =>
    exact .stuck us hne hopens hadvance hhalts hblames

/-- A parser whose result is dropped ends as it does in a sequence. -/
theorem Ends.thenIgnore (h : Ends D p others ts (P size ts))
    (hQ : ∀ a rest, Ends E (κ a) [] rest (Q size rest))
    (hadvance : ∀ us a, D us a → p.advance? us = some (κ a))
    (hκ : ∀ a, (κ a).ending? = none) {F : List Lexeme → α → Prop}
    (hF : ∀ us a vs b, D us a → E vs b → F (us ++ vs) a) :
    Ends F p others ts (P.thenIgnore Q size ts) :=
  (h.andThen (F := fun us ab => F us ab.1) hQ hadvance hκ hF).map fun _ _ hab => hab

theorem thenIgnore_eq (P : Parser α) (Q : Parser β) (size : Nat) (ts : List Lexeme) :
    P.thenIgnore Q size ts = (P size ts).bind fun a rest => (Q size rest).map fun _ => a := by
  unfold Parser.thenIgnore Parser.map Parser.andThen
  rw [Reply.map_bind]
  simp only [Reply.map_map]
  rfl

theorem ignoreThen_eq (P : Parser α) (Q : Parser β) (size : Nat) (ts : List Lexeme) :
    P.ignoreThen Q size ts = (P size ts).bind fun _ rest => Q size rest := by
  unfold Parser.ignoreThen Parser.map Parser.andThen
  rw [Reply.map_bind]
  simp only [Reply.map_map]
  congr 1
  funext a rest
  obtain ⟨_ | ⟨b, behind⟩, misses⟩ := Q size rest <;> rfl

/-- Whether a token that is given stands there. -/
theorem just_cases (t : Token) (size : Nat) (ts : List Lexeme) :
    (∃ span rest, ts = ⟨t, span⟩ :: rest ∧ just t size ts = ⟨some (⟨t, span⟩, rest), []⟩) ∨
      (∀ l ∈ ts.head?, l.token ≠ t) ∧ just t size ts = ⟨none, [⟨ts, .token t.render⟩]⟩ := by
  cases ts with
  | nil => exact Or.inr ⟨by simp, rfl⟩
  | cons l rest =>
    obtain ⟨token, span⟩ := l
    by_cases h : token = t
    · subst h
      exact Or.inl ⟨span, rest, rfl, by simp [just, one]⟩
    · exact Or.inr ⟨by simpa using h, by simp [just, one, h]⟩

/-! ## Lists -/

/-- Items with commas between them, and the token that closes their list. -/
def Enclosed (D : List Lexeme → α → Prop) (close : Token) (ts : List Lexeme) (as : List α) : Prop :=
  ∃ inner span, Listed D inner as ∧ ts = inner ++ [⟨close, span⟩]

/-- One more item before the others. -/
theorem Enclosed.cons {close : Token} {vs : List Lexeme} {a : α} {as : List α} (comma : Span)
    (ha : D us a) (h : Enclosed D close vs as) :
    Enclosed D close (us ++ [⟨.comma, comma⟩] ++ vs) (a :: as) := by
  obtain ⟨inner, span, hlisted, rfl⟩ := h
  refine ⟨us ++ ⟨.comma, comma⟩ :: inner, span, ?_, by simp⟩
  cases hlisted with
  | nothing => exact .trailing comma (.one ha)
  | items hitems => exact .items (.more comma ha hitems)
  | trailing last hitems =>
    rw [← List.cons_append, ← List.append_assoc]
    exact .trailing last (.more comma ha hitems)

/-- The positions inside of a list, before its items and behind them, by the items so far. -/
structure Encloses (D : List Lexeme → α → Prop) (close : Token)
    (inside behind : List α → Position) : Prop where
  item : ∀ as us a, D us a → (inside as).advance? us = some (behind (a :: as))
  comma : ∀ as span, (behind as).next? ⟨.comma, span⟩ = some (inside as)
  stops : ∀ as (l : Lexeme), l.token ≠ .comma → l.token ≠ close → (behind as).next? l = none
  expects : ∀ as, (behind as).expectations = [.token ",", .token close.render]
  unfinished : ∀ as, (behind as).ending? = none ∧ (inside as).ending? = none

/-- **Lists in brackets**, from behind the opening one: items with commas between them, and a comma
behind the last of them if there is one. -/
theorem ends_separatedFrom {item : Parser α} {close : Token} {inside behind : List α → Position}
    (hlist : Encloses D close inside behind)
    (hitem : ∀ as size ts, Ends D (inside as) [close] ts (item size ts))
    (size limit : Nat) (as : List α) (ts : List Lexeme) (hlimit : ts.length < limit) :
    Ends (Enclosed D close) (inside as) [] ts
      ((item.separatedFrom (just .comma) size limit ts).bind fun bs rest =>
        (just close size rest).map fun _ => bs) := by
  -- item by item; what follows a comma is such a list again
  induction limit generalizing as ts with
  | zero => omega
  | succ limit ih =>
    have h := hitem as size ts
    unfold separatedFrom
    generalize item size ts = reply at h ⊢
    cases h with
    | @found us rest a misses hD hne hopens hbefore =>
      have hadvance := hlist.item as us a hD
      rcases just_cases .comma size rest with ⟨span, behind, rfl, hcomma⟩ | ⟨hnone, hcomma⟩
      · have hinside : (inside as).advance? (us ++ [⟨.comma, span⟩]) = some (inside (a :: as)) :=
          advance?_trans hadvance (by simp [hlist.comma])
        have hfewer : behind.length < limit := by
          rw [List.length_append, List.length_cons] at hlimit
          omega
        have hrest := ih (a :: as) behind hfewer
        have hshort : Before behind misses := hbefore.mono (by simp)
        have hall := hrest.behind (g := (a :: ·)) (by simp) opens_nil hinside
          (hlist.unfinished _).2 hshort fun vs bs hbs => hbs.cons span hD
        simpa [hcomma, Function.comp_def] using hall
      · dsimp only
        rw [hcomma]
        rcases just_cases close size rest with ⟨span, behind, rfl, hclose⟩ | ⟨hopen, hclose⟩
        · have hfound : Enclosed D close (us ++ [⟨close, span⟩]) [a] :=
            ⟨us, span, .items (.one hD), rfl⟩
          have hmisses : Before behind (misses ++ [⟨⟨close, span⟩ :: behind, .token ","⟩]) :=
            (hbefore.mono (by simp)).append (before_cons (by simp) before_nil)
          have hends := Ends.found (p := inside as) _ hfound (by simp) opens_nil hmisses
          simpa [hclose, Token.render] using hends
        · have hblames : Blames (misses ++ [⟨rest, .token ","⟩, ⟨rest, .token close.render⟩]) rest
              (behind (a :: as)) := by
            refine Blames.behind ⟨upTo_here (upTo_here upTo_nil), ?_⟩ hbefore
            rw [notedAt_here, notedAt_here, notedAt_nil, ← hlist.expects, eraseDups_expectations]
          have hhalts : Halts (behind (a :: as)) rest :=
            ⟨(hlist.unfinished _).1, fun l hl => hlist.stops _ l (hnone l hl) (hopen l hl)⟩
          have hends := Ends.stuck (D := Enclosed D close) us hne opens_nil hadvance hhalts hblames
          simpa [hclose, Token.render] using hends
    | @refused _ expected hexpected hstops =>
      rcases just_cases close size ts with ⟨span, behind, rfl, hclose⟩ | ⟨hopen, hclose⟩
      · have hmisses : Before behind
            (expected.map fun e => (⟨⟨close, span⟩ :: behind, e⟩ : Miss)) := by
          intro m hm
          obtain ⟨e, -, rfl⟩ := List.mem_map.1 hm
          simp
        have hfound : Enclosed D close [⟨close, span⟩] [] := ⟨[], span, .nothing, rfl⟩
        have hends := Ends.found (p := inside as) _ hfound (by simp) opens_nil hmisses
        simpa [hclose] using hends
      · have hends : Ends (Enclosed D close) (inside as) [] ts _ :=
          Ends.refused (expected ++ [.token close.render]) (by simpa using hexpected)
            fun l hl => Or.inl ((hstops l hl).resolve_right (by simpa using hopen l hl))
        simpa [hclose] using hends
    | @stuck us rest q misses hne hopens hadvance hhalts hblames =>
      rcases just_cases close size (us ++ rest) with ⟨span, behind, hts, -⟩ | ⟨-, hclose⟩
      · -- what the item took is no closing bracket
        obtain ⟨l, us, rfl⟩ := List.exists_cons_of_ne_nil hne
        obtain ⟨rfl, -⟩ := List.cons.inj hts
        exact absurd (List.mem_singleton_self close) (hopens _ rfl)
      · have hends := Ends.stuck (D := Enclosed D close) us hne opens_nil hadvance hhalts
          (hblames.append (before_cons (e := .token close.render) (length_lt_append hne rest)
            before_nil))
        simpa [hclose] using hends

end Combinators

end ShapeFlow.Sketch
