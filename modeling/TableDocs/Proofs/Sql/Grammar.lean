import Mathlib.Computability.Language
import TableDocs.Proofs.Sql.GroupExtent

/-!
# TableDocs — languages of lexemes

The grammars of statements are regular expressions over lexemes, so they are written down as
languages: concatenation is `*`, choice is `+`, an optional part is `1 + L` and a repeated one is
`L∗`. A reader that takes a part off the front knows nothing of what other ways there are to read
it. This module says when it need not:

* **`word`**, **`phrase`**, **`enclosed`**, **`parenthesized`** — the atoms of the grammars.
* **`Greedy`** — a stretch was taken off the front as far as a part goes: any other match of the
  part is shorter and stops in front of one more of its units.
* **`greedy_optional_of_mem`**, **`greedy_kstar_append`** and their companions — how greedy
  stretches come about when the units of the part are a prefix code.
* **`Greedy.rest_eq`** — a match that cannot go on with another unit is the greedy one.
* **`Greedy.longest_mul`** — so greedy stretches in a row make the longest match of all, if each
  part can be told from what follows it.
-/

namespace TableDocs.Sql.Grammar

open scoped Computability

/-! ## Atoms

The words of these languages are lists of lexemes. An atom says something of one or two lexemes and
nothing of their neighbours. -/

/-- One keyword out of several. -/
def word (ws : List String) : Language Lexeme :=
  {ls | ∃ l, ls = [l] ∧ l.keyword ∈ ws}

/-- Several keywords in a row. -/
def phrase (ws : List String) : Language Lexeme :=
  {ls | ls.map Lexeme.keyword = ws}

/-- One mark. -/
def mark (p : Punct) : Language Lexeme :=
  {ls | ∃ l, ls = [l] ∧ l.isPunct p = true}

/-- Lexemes none of which is the mark. -/
def free (p : Punct) : Language Lexeme :=
  {ls | ∀ l ∈ ls, l.isPunct p = false}

/-- An opening mark and what follows it up to the next closing one. -/
def enclosed (opening closing : Punct) : Language Lexeme :=
  mark opening * free closing * mark closing

/-- Lexemes in which every parenthesis has its partner. -/
def balanced : Language Lexeme :=
  {ls | Group.NeverBelow 0 ls ∧ Group.depth ls = 0}

/-- An opening parenthesis, what it encloses, and the parenthesis that closes it. -/
def parenthesized : Language Lexeme :=
  mark .openParen * balanced * mark .closeParen

section Atoms

variable {ls : List Lexeme}

theorem mem_phrase {ws : List String} : ls ∈ phrase ws ↔ ls.map Lexeme.keyword = ws :=
  Iff.rfl

theorem mem_phrase_singleton {w : String} : ls ∈ phrase [w] ↔ ∃ l, ls = [l] ∧ l.keyword = w := by
  rw [mem_phrase, List.map_eq_singleton_iff]

/-- Something between two marks. -/
theorem mem_between {p q : Punct} {L : Language Lexeme} : ls ∈ mark p * L * mark q ↔
    ∃ opening inner close, ls = opening :: (inner ++ [close]) ∧
      opening.isPunct p = true ∧ inner ∈ L ∧ close.isPunct q = true := by
  constructor
  · rintro ⟨_, ⟨_, ⟨opening, rfl, ho⟩, inner, hinner, rfl⟩, _, ⟨close, rfl, hc⟩, rfl⟩
    exact ⟨opening, inner, close, rfl, ho, hinner, hc⟩
  · rintro ⟨opening, inner, close, rfl, ho, hinner, hc⟩
    exact ⟨_, ⟨_, ⟨opening, rfl, ho⟩, inner, hinner, rfl⟩, _, ⟨close, rfl, hc⟩, rfl⟩

theorem nil_notMem_word (ws : List String) : [] ∉ word ws := by
  rintro ⟨l, hnil, -⟩
  exact absurd hnil (List.cons_ne_nil l []).symm

theorem nil_notMem_between (p q : Punct) (L : Language Lexeme) : [] ∉ mark p * L * mark q := by
  intro h
  obtain ⟨opening, inner, close, hnil, -⟩ := mem_between.mp h
  exact absurd hnil (List.cons_ne_nil opening _).symm

theorem mem_enclosed {p q : Punct} : ls ∈ enclosed p q ↔
    ∃ opening inner close, ls = opening :: (inner ++ [close]) ∧
      opening.isPunct p = true ∧ inner ∈ free q ∧ close.isPunct q = true :=
  mem_between

theorem mem_parenthesized : ls ∈ parenthesized ↔
    ∃ opening inner close, ls = opening :: (inner ++ [close]) ∧
      opening.isPunct .openParen = true ∧ inner ∈ balanced ∧ close.isPunct .closeParen = true :=
  mem_between

/-- An optional part is absent or there. -/
theorem mem_optional {L : Language Lexeme} : ls ∈ 1 + L ↔ ls = [] ∨ ls ∈ L := by
  rw [Language.mem_add, Language.mem_one]

/-- A repetition is empty or begins with one of its units. -/
theorem mem_kstar_iff {L : Language Lexeme} :
    ls ∈ L∗ ↔ ls = [] ∨ ∃ u ∈ L, ∃ more ∈ L∗, u ++ more = ls := by
  rw [← Language.one_add_self_mul_kstar_eq_kstar L, mem_optional, Language.mem_mul,
    Language.one_add_self_mul_kstar_eq_kstar L]

theorem append_mem_kstar {L : Language Lexeme} {u more : List Lexeme} (hu : u ∈ L)
    (hmore : more ∈ L∗) : u ++ more ∈ L∗ :=
  mem_kstar_iff.mpr (.inr ⟨u, hu, more, hmore, rfl⟩)

end Atoms

/-! ## First lexemes

Two parts are told apart by the lexemes that they start with. -/

/-- The words of the language start with such lexemes. -/
def StartsIn (S : Set Lexeme) (L : Language Lexeme) : Prop :=
  ∀ l ls, l :: ls ∈ L → l ∈ S

section Starts

variable {S T : Set Lexeme} {L M : Language Lexeme}

theorem StartsIn.mono (h : StartsIn S L) (hST : S ⊆ T) : StartsIn T L :=
  fun l ls hl => hST (h l ls hl)

theorem startsIn_word {ws : List String} : StartsIn {l | l.keyword ∈ ws} (word ws) := by
  rintro l ls ⟨l', he, hl⟩
  cases he
  exact hl

/-- An optional part starts as the part does, when it is there. -/
theorem StartsIn.optional (h : StartsIn S L) : StartsIn S (1 + L) := by
  intro l ls hl
  rcases mem_optional.mp hl with hl | hl
  · exact absurd hl (List.cons_ne_nil l ls)
  · exact h l ls hl

/-- Two parts in a row start as the first does, or as the second where the first is empty. -/
theorem StartsIn.mul (hL : StartsIn S L) (hM : StartsIn S M) : StartsIn S (L * M) := by
  rintro l ls ⟨u, hu, v, hv, he⟩
  cases u with
  | nil =>
    have he : v = l :: ls := he
    exact hM l ls (he ▸ hv)
  | cons l' u =>
    obtain ⟨rfl, -⟩ := List.cons_eq_cons.mp he
    exact hL l' u hu

/-- A part that is not empty hides what follows it. -/
theorem StartsIn.mul_right (hL : StartsIn S L) (hnil : [] ∉ L) : StartsIn S (L * M) := by
  rintro l ls ⟨u, hu, v, -, he⟩
  cases u with
  | nil => exact absurd hu hnil
  | cons l' u =>
    obtain ⟨rfl, -⟩ := List.cons_eq_cons.mp he
    exact hL l' u hu

theorem startsIn_between {p q : Punct} :
    StartsIn {l | l.isPunct p = true} (mark p * L * mark q) := by
  intro l ls h
  obtain ⟨opening, inner, close, he, ho, -⟩ := mem_between.mp h
  obtain ⟨rfl, -⟩ := List.cons_eq_cons.mp he
  exact ho

/-- A repeated part starts as one of its units. -/
theorem StartsIn.kstar (h : StartsIn S L) : StartsIn S L∗ := by
  rintro l ls ⟨chunks, hflat, hchunks⟩
  induction chunks with
  | nil => exact absurd hflat (List.cons_ne_nil l ls)
  | cons u chunks ih =>
    rw [List.flatten_cons] at hflat
    cases u with
    | nil => exact ih hflat fun y hy => hchunks y (List.mem_cons_of_mem _ hy)
    | cons l' u =>
      obtain ⟨rfl, -⟩ := List.cons_eq_cons.mp hflat
      exact h l u (hchunks _ List.mem_cons_self)

end Starts

/-! ## Units

A unit that was read ends where it ends, whatever follows. -/

/-- No word of the language begins another one. -/
def PrefixFree (U : Language Lexeme) : Prop :=
  ∀ u ∈ U, ∀ v ∈ U, ∀ r s, u ++ r = v ++ s → u = v

/-- Words of one length never begin one another. -/
theorem prefixFree_of_length {U : Language Lexeme} (n : Nat) (h : ∀ u ∈ U, u.length = n) :
    PrefixFree U :=
  fun u hu v hv _ _ he => (List.append_inj he ((h u hu).trans (h v hv).symm)).1

theorem prefixFree_word (ws : List String) : PrefixFree (word ws) := by
  refine prefixFree_of_length 1 ?_
  rintro _ ⟨l, rfl, -⟩
  rfl

theorem prefixFree_phrase (ws : List String) : PrefixFree (phrase ws) := by
  refine prefixFree_of_length ws.length fun u hu => ?_
  rw [← mem_phrase.mp hu, List.length_map]

/-- The first closing mark ends what is enclosed, whatever follows. -/
theorem prefixFree_enclosed (p q : Punct) : PrefixFree (enclosed p q) := by
  intro u hu v hv r s he
  obtain ⟨opening, inner, close, rfl, -, hinner, hclose⟩ := mem_enclosed.mp hu
  obtain ⟨opening', inner', close', rfl, -, hinner', hclose'⟩ := mem_enclosed.mp hv
  simp only [List.cons_append, List.append_assoc, List.nil_append, List.cons_eq_cons] at he
  obtain ⟨rfl, he⟩ := he
  -- both are split at the first closing mark behind the opening one
  have hsplit := Lexeme.splitAt?_append r hclose hinner
  rw [he, Lexeme.splitAt?_append s hclose' hinner'] at hsplit
  simp only [Option.some.injEq, Prod.mk.injEq] at hsplit
  obtain ⟨rfl, rfl, -⟩ := hsplit
  rfl

/-- A group ends at the parenthesis that closes it, whatever follows. -/
theorem prefixFree_parenthesized : PrefixFree parenthesized := by
  intro u hu v hv r s he
  obtain ⟨opening, inner, close, rfl, -, hinner, hclose⟩ := mem_parenthesized.mp hu
  obtain ⟨opening', inner', close', rfl, -, hinner', hclose'⟩ := mem_parenthesized.mp hv
  simp only [List.cons_append, List.append_assoc, List.nil_append, List.cons_eq_cons] at he
  obtain ⟨rfl, he⟩ := he
  -- both stretches are the group that the opening parenthesis begins
  have hgroup := Group.close?_append (d := 0) (g := ⟨inner, close, []⟩)
    ⟨hclose, by simpa using hinner.2, hinner.1⟩ r
  have hgroup' := Group.close?_append (d := 0) (g := ⟨inner', close', []⟩)
    ⟨hclose', by simpa using hinner'.2, hinner'.1⟩ s
  simp only [he, hgroup', Option.some.injEq, Group.mk.injEq] at hgroup
  obtain ⟨rfl, rfl, -⟩ := hgroup
  rfl

/-! ## Greedy stretches

That a match is the longest one is too little to put matches in a row: the next part could still use
up what a shorter match leaves. So it is also said where any shorter match stops. -/

/-- The stretch `p` was taken off the front of `p ++ r` as far as `L` goes, whose units are `U`. -/
structure Greedy (U L : Language Lexeme) (p r : List Lexeme) : Prop where
  mem : p ∈ L
  /-- Any other match is shorter and stops in front of a unit. -/
  stops : ∀ p' r', p' ∈ L → p' ++ r' = p ++ r → r' ≠ r →
    p'.length ≤ p.length ∧ ∃ u ∈ U, u <+: r'

section Units

variable {U L M : Language Lexeme} {u p q r s : List Lexeme}

/-- A unit that is there is taken. -/
theorem greedy_optional_of_mem (hU : PrefixFree U) (hu : u ∈ U) (r : List Lexeme) :
    Greedy U (1 + U) u r := by
  refine ⟨mem_optional.mpr (.inr hu), fun p' r' hp' he hne => ?_⟩
  rcases mem_optional.mp hp' with rfl | hp'
  · exact ⟨Nat.zero_le _, u, hu, r, he.symm⟩
  · have := hU p' hp' u hu r' r he
    subst this
    exact absurd (List.append_cancel_left he) hne

/-- Where no unit is there, nothing is taken. -/
theorem greedy_nil (h : ∀ u ∈ U, ¬u <+: r) : Greedy U (1 + U) [] r := by
  refine ⟨mem_optional.mpr (.inl rfl), fun p' r' hp' he hne => ?_⟩
  rcases mem_optional.mp hp' with rfl | hp'
  · exact absurd he hne
  · exact absurd ⟨r', he⟩ (h p' hp')

/-- The same of a repeated part. -/
theorem greedy_kstar_nil (h : ∀ u ∈ U, ¬u <+: r) : Greedy U U∗ [] r := by
  refine ⟨Language.nil_mem_kstar U, fun p' r' hp' he hne => ?_⟩
  rcases mem_kstar_iff.mp hp' with rfl | ⟨u, hu, more, -, rfl⟩
  · exact absurd he hne
  · rw [List.append_assoc] at he
    exact absurd ⟨_, he⟩ (h u hu)

/-- One more unit in front of a greedy stretch. -/
theorem greedy_kstar_append (hU : PrefixFree U) (hu : u ∈ U) (h : Greedy U U∗ p r) :
    Greedy U U∗ (u ++ p) r := by
  refine ⟨append_mem_kstar hu h.mem, fun p' r' hp' he hne => ?_⟩
  -- another match begins with the same unit, since units are a prefix code
  rcases mem_kstar_iff.mp hp' with rfl | ⟨v, hv, more, hmore, rfl⟩
  · exact ⟨Nat.zero_le _, u, hu, p ++ r, by rw [← List.append_assoc]; exact he.symm⟩
  · rw [List.append_assoc, List.append_assoc] at he
    have := hU v hv u hu _ _ he
    subst this
    obtain ⟨hlength, hunit⟩ := h.stops more r' hmore (List.append_cancel_left he) hne
    rw [List.length_append, List.length_append]
    exact ⟨Nat.add_le_add_left hlength _, hunit⟩

/-- **A match that cannot go on is the greedy one.** -/
theorem Greedy.rest_eq (h : Greedy U L p r) {p' r' : List Lexeme} (hp' : p' ∈ L)
    (he : p' ++ r' = p ++ r) (hstop : ∀ u ∈ U, ¬u <+: r') : r' = r := by
  by_contra hne
  obtain ⟨-, u, hu, hprefix⟩ := h.stops p' r' hp' he hne
  exact hstop u hu hprefix

/-! ## Longest matches

What a reader takes is the longest match, if each of its parts is greedy and no part starts like one
that follows it. -/

/-- The longest stretch at the front of `ls` that is a word of the language. -/
structure Longest (L : Language Lexeme) (ls p : List Lexeme) : Prop where
  mem : p ∈ L
  isPrefix : p <+: ls
  longest : ∀ q ∈ L, q <+: ls → q.length ≤ p.length

/-- A greedy stretch is the longest match of its part. -/
theorem Greedy.longest (h : Greedy U L p r) : Longest L (p ++ r) p := by
  refine ⟨h.mem, List.prefix_append p r, ?_⟩
  rintro q hq ⟨s, he⟩
  by_cases hs : s = r
  · subst hs
    exact (congrArg List.length (List.append_cancel_right he)).le
  · exact (h.stops q s hq he hs).1

/-- Nothing but the empty word follows where a unit of `U` stands. -/
def Apart (U M : Language Lexeme) : Prop :=
  ∀ u ∈ U, ∀ q ∈ M, ∀ ls, u <+: ls → q <+: ls → q = []

/-- Parts that start with different lexemes are told apart. -/
theorem apart_of_startsIn {S : Set Lexeme} (hU : StartsIn S U) (hnil : [] ∉ U)
    (hM : StartsIn Sᶜ M) : Apart U M := by
  rintro u hu q hq ls ⟨r, rfl⟩ hprefix
  cases u with
  | nil => exact absurd hu hnil
  | cons l u =>
    cases q with
    | nil => rfl
    | cons l' q =>
      obtain ⟨rfl, -⟩ := List.cons_prefix_cons.mp hprefix
      exact absurd (hU l' u hu) (hM l' q hq)

/-- There is one longest match. -/
theorem Longest.unique {ls : List Lexeme} (h : Longest L ls p) (h' : Longest L ls q) : p = q := by
  have hprefix := List.prefix_of_prefix_length_le h.isPrefix h'.isPrefix
    (h'.longest p h.mem h.isPrefix)
  exact hprefix.eq_of_length_le (h.longest q h'.mem h'.isPrefix)

/-- A unit that has to be there is there whatever follows. -/
theorem Longest.unit_mul (hU : PrefixFree U) (hu : u ∈ U) (hq : Longest M r q) :
    Longest (U * M) (u ++ r) (u ++ q) := by
  refine ⟨Language.append_mem_mul hu hq.mem, (List.prefix_append_right_inj u).mpr hq.isPrefix, ?_⟩
  rintro _ ⟨v, hv, q', hq', rfl⟩ ⟨x, he⟩
  simp only [List.append_assoc] at he
  obtain rfl := hU v hv u hu _ _ he
  have hlength := hq.longest q' hq' ⟨x, List.append_cancel_left he⟩
  simp only [List.length_append]
  omega

/-- **Greedy stretches in a row make the longest match.** -/
theorem Greedy.longest_mul (h : Greedy U L p r) (hq : Longest M r q) (hapart : Apart U M) :
    Longest (L * M) (p ++ r) (p ++ q) := by
  refine ⟨Language.append_mem_mul h.mem hq.mem, (List.prefix_append_right_inj p).mpr hq.isPrefix,
    ?_⟩
  rintro _ ⟨p', hp', q', hq', rfl⟩ ⟨x, he⟩
  simp only [List.append_assoc] at he
  have hprefix : q' <+: q' ++ x := List.prefix_append q' x
  by_cases hrest : q' ++ x = r
  · -- the first stretch is the greedy one, and the second cannot be longer than the longest
    rw [hrest] at he hprefix
    have hp := congrArg List.length (List.append_cancel_right he)
    have hlength := hq.longest q' hq' hprefix
    simp only [List.length_append]
    omega
  · -- the first stretch stops in front of a unit, and the second is empty there
    obtain ⟨hlength, u, hu, hunit⟩ := h.stops p' (q' ++ x) hp' he hrest
    rw [hapart u hu q' hq' _ hunit hprefix]
    simp only [List.append_nil, List.length_append]
    omega

end Units

end TableDocs.Sql.Grammar
