import Mathlib
import TableDocs.Sql.Group
import TableDocs.Proofs.Sql.ReaderExtent

/-!
# TableDocs — the depth of parentheses and the extent of a group

`depth ls` is the number of parentheses that `ls` opens less the number that it closes. Everything
that is said about groups is said by it:

* **`close?_extent`**, **`close?_append`** — a group is closed at the first parenthesis that brings
  the depth below where it began; the lexemes inside have depth zero and never fall below it.
* **`balanced_iff`** — parentheses balance when the depth is zero at the end and never below zero on
  the way.
* **`allClose_of_balanced`** — where they balance, every group is closed.
-/

namespace TableDocs.Sql.Group

/-! ## Depth

A parenthesis is one step up or down and any other lexeme none. The depth of a list is the sum of
its steps, so it is additive, which the arguments below use at every turn. -/

theorem depthStep_of_open {l : Lexeme} (h : l.isPunct .openParen = true) : depthStep l = 1 := by
  rw [depthStep, if_pos h]

theorem depthStep_of_close {l : Lexeme} (h : l.isPunct .closeParen = true) : depthStep l = -1 := by
  have ho : l.isPunct .openParen = false := Lexeme.isPunct_eq_false_of_ne h (by decide)
  rw [depthStep, if_neg (by simp [ho]), if_pos h]

theorem depthStep_of_other {l : Lexeme} (ho : l.isPunct .openParen = false)
    (hc : l.isPunct .closeParen = false) : depthStep l = 0 := by
  rw [depthStep, if_neg (by simp [ho]), if_neg (by simp [hc])]

/-- The parentheses that `ls` opens less those that it closes. -/
def depth (ls : List Lexeme) : Int :=
  (ls.map depthStep).sum

@[simp] theorem depth_nil : depth [] = 0 := rfl

@[simp] theorem depth_cons (l : Lexeme) (ls : List Lexeme) :
    depth (l :: ls) = depthStep l + depth ls := by
  simp [depth]

@[simp] theorem depth_append (ls ls' : List Lexeme) :
    depth (ls ++ ls') = depth ls + depth ls' := by
  simp [depth]

/-- The depth counts the parentheses of either kind. -/
theorem depth_eq_count (ls : List Lexeme) :
    depth ls =
      (ls.countP (Lexeme.isPunct .openParen) : Int) - ls.countP (Lexeme.isPunct .closeParen) := by
  induction ls with
  | nil => rfl
  | cons l ls ih =>
    rw [depth_cons, List.countP_cons, List.countP_cons, ih]
    cases ho : l.isPunct .openParen with
    | true =>
      -- no lexeme is both
      have hc : l.isPunct .closeParen = false := Lexeme.isPunct_eq_false_of_ne ho (by decide)
      rw [depthStep_of_open ho, hc]
      simp only [if_true, Bool.false_eq_true, if_false]
      omega
    | false =>
      cases hc : l.isPunct .closeParen with
      | true =>
        rw [depthStep_of_close hc]
        simp only [if_true, Bool.false_eq_true, if_false]
        omega
      | false =>
        rw [depthStep_of_other ho hc]
        simp only [Bool.false_eq_true, if_false]
        omega

/-- With `d` parentheses open before, no stretch at the front closes more than are open. -/
def NeverBelow (d : Int) (ls : List Lexeme) : Prop :=
  ∀ front, front <+: ls → 0 ≤ d + depth front

theorem neverBelow_nil {d : Int} : NeverBelow d [] ↔ 0 ≤ d := by
  simp [NeverBelow]

/-- The property of a list from that of its tail, at the depth behind the first lexeme. -/
theorem neverBelow_cons {d : Int} {l : Lexeme} {ls : List Lexeme} :
    NeverBelow d (l :: ls) ↔ 0 ≤ d ∧ NeverBelow (d + depthStep l) ls := by
  constructor
  · intro h
    refine ⟨by simpa using h [] List.nil_prefix, ?_⟩
    intro front hfront
    have := h (l :: front) (List.cons_prefix_cons.mpr ⟨rfl, hfront⟩)
    rw [depth_cons] at this
    omega
  · rintro ⟨hd, h⟩ front hfront
    rcases List.prefix_cons_iff.mp hfront with rfl | ⟨front', rfl, hfront'⟩
    · simpa using hd
    · have := h front' hfront'
      rw [depth_cons]
      omega

theorem NeverBelow.depth_nonneg {d : Int} {ls : List Lexeme} (h : NeverBelow d ls) :
    0 ≤ d + depth ls :=
  h ls (List.prefix_refl ls)

/-- Two lists one behind the other: the second starts at the depth at which the first ends. -/
theorem NeverBelow.append {d : Int} {ls ls' : List Lexeme} (h : NeverBelow d ls)
    (h' : NeverBelow (d + depth ls) ls') : NeverBelow d (ls ++ ls') := by
  rintro front ⟨behind, hfront⟩
  -- a stretch at the front ends in the first list or reaches into the second
  rcases List.append_eq_append_iff.mp hfront with ⟨a, rfl, -⟩ | ⟨front', rfl, rfl⟩
  · exact h front (List.prefix_append front a)
  · have := h' front' (List.prefix_append front' behind)
    rw [depth_append]
    omega

theorem NeverBelow.of_append_left {d : Int} {ls ls' : List Lexeme}
    (h : NeverBelow d (ls ++ ls')) : NeverBelow d ls :=
  fun front hfront => h front (hfront.trans (List.prefix_append ls ls'))

theorem NeverBelow.of_append_right {d : Int} {ls ls' : List Lexeme}
    (h : NeverBelow d (ls ++ ls')) : NeverBelow (d + depth ls) ls' := by
  intro front hfront
  have := h (ls ++ front) ((List.prefix_append_right_inj ls).mpr hfront)
  rw [depth_append] at this
  omega

/-! ## The end of a group

The function that looks for the end counts in natural numbers, the open parentheses inside the
group. The depth of what it has passed, added to that number, is what it has left to close. -/

/-- What a group is like that was closed with `d` further parentheses open inside it. -/
structure Closed (d : Nat) (g : Group) : Prop where
  close_isPunct : g.close.isPunct .closeParen = true
  depth_inner : d + depth g.inner = 0
  neverBelow_inner : NeverBelow d g.inner

/-- A lexeme in front of a closed group makes a closed group of the depth before it. -/
theorem Closed.cons {d e : Nat} {g : Group} (h : Closed e g) {l : Lexeme}
    (hl : (e : Int) = d + depthStep l) : Closed d { g with inner := l :: g.inner } where
  close_isPunct := h.close_isPunct
  depth_inner := by
    have := h.depth_inner
    rw [depth_cons]
    omega
  neverBelow_inner := by
    refine neverBelow_cons.mpr ⟨Int.natCast_nonneg d, ?_⟩
    rw [← hl]
    exact h.neverBelow_inner

/-- What is found is the inside, the closing parenthesis and the rest, and the inside is as it
should be. -/
theorem close?_extent {d : Nat} {ls : List Lexeme} {g : Group} (h : close? d ls = some g) :
    ls = g.inner ++ g.close :: g.rest ∧ Closed d g := by
  induction ls generalizing d g with
  | nil => simp [close?] at h
  | cons l ls ih =>
    -- every branch but the closing one puts `l` in front of a group of the tail
    have step : ∀ {e : Nat}, (e : Int) = d + depthStep l →
        (close? e ls).map (fun g => { g with inner := l :: g.inner }) = some g →
        l :: ls = g.inner ++ g.close :: g.rest ∧ Closed d g := by
      intro e he hmap
      obtain ⟨g', hs, rfl⟩ := Option.map_eq_some_iff.mp hmap
      obtain ⟨hls, hclosed⟩ := ih hs
      exact ⟨congrArg (l :: ·) hls, hclosed.cons he⟩
    rw [close?.eq_def] at h
    simp only at h
    split at h
    · next ho => exact step (by rw [depthStep_of_open ho]; rfl) h
    · next ho =>
      split at h
      · next hc =>
        cases d with
        | zero =>
          -- at depth zero this parenthesis is the end of the group
          cases h
          exact ⟨rfl, hc, rfl, neverBelow_nil.mpr (by decide)⟩
        | succ d => exact step (by rw [depthStep_of_close hc]; omega) h
      · next hc =>
        rw [Bool.not_eq_true] at ho hc
        exact step (by rw [depthStep_of_other ho hc]; omega) h

/-- A stretch that never falls below its start and a parenthesis that closes it are read as a
group, whatever follows. -/
theorem close?_append {d : Nat} {g : Group} (h : Closed d g) (rest : List Lexeme) :
    close? d (g.inner ++ g.close :: rest) = some { g with rest } := by
  obtain ⟨inner, close, _⟩ := g
  obtain ⟨hclose, hdepth, hbelow⟩ := h
  induction inner generalizing d with
  | nil =>
    have ho : close.isPunct .openParen = false := Lexeme.isPunct_eq_false_of_ne hclose (by decide)
    have hd : d = 0 := by simpa using hdepth
    subst hd
    simp [close?, ho, hclose]
  | cons l inner ih =>
    obtain ⟨-, hbelow⟩ := neverBelow_cons.mp hbelow
    rw [depth_cons] at hdepth
    have hstep : ∀ {e : Nat}, (e : Int) = d + depthStep l →
        close? e (inner ++ close :: rest) = some ⟨inner, close, rest⟩ := by
      intro e he
      have hdepth' : (e : Int) + depth inner = 0 := by omega
      exact ih hclose hdepth' (by rw [he]; exact hbelow)
    cases ho : l.isPunct .openParen with
    | true =>
      have := hstep (e := d + 1) (by rw [depthStep_of_open ho]; rfl)
      simp [close?, ho, this]
    | false =>
      cases hc : l.isPunct .closeParen with
      | true =>
        -- a group that never falls below its start cannot end here
        have hpos : 0 < d := by
          have := hbelow [] List.nil_prefix
          rw [depthStep_of_close hc, depth_nil] at this
          omega
        obtain ⟨e, rfl⟩ : ∃ e, d = e + 1 := ⟨d - 1, by omega⟩
        have := hstep (e := e) (by rw [depthStep_of_close hc]; omega)
        simp [close?, ho, hc, this]
      | false =>
        have := hstep (e := d) (by rw [depthStep_of_other ho hc]; omega)
        simp [close?, ho, hc, this]

/-! ### Groups and what follows them -/

/-- The closing parenthesis and what follows it are the end of the list. -/
theorem close_suffix_of_close? {d : Nat} {ls : List Lexeme} {g : Group}
    (h : close? d ls = some g) : g.close :: g.rest <:+ ls :=
  ⟨g.inner, (close?_extent h).1.symm⟩

/-- A group that starts here has its opening parenthesis here. -/
theorem read?_eq_some_iff {ls : List Lexeme} {opening : Lexeme} {g : Group} :
    read? ls = some (opening, g) ↔
      ∃ rest, ls = opening :: rest ∧ opening.isPunct .openParen = true ∧
        close? 0 rest = some g := by
  cases ls with
  | nil => simp [read?]
  | cons l rest =>
    rw [read?]
    constructor
    · intro h
      split at h
      · next hl =>
        obtain ⟨g', hg, he⟩ := Option.map_eq_some_iff.mp h
        cases he
        exact ⟨rest, rfl, hl, hg⟩
      · cases h
    · rintro ⟨rest', he, hl, hg⟩
      cases he
      rw [if_pos hl, hg]
      rfl

/-- The extent of a group with its opening parenthesis. -/
theorem read?_extent {ls : List Lexeme} {opening : Lexeme} {g : Group}
    (h : read? ls = some (opening, g)) :
    ls = opening :: (g.inner ++ g.close :: g.rest) ∧ opening.isPunct .openParen = true ∧
      Closed 0 g := by
  obtain ⟨rest, rfl, hopening, hg⟩ := read?_eq_some_iff.mp h
  obtain ⟨hrest, hclosed⟩ := close?_extent hg
  exact ⟨congrArg (opening :: ·) hrest, hopening, hclosed⟩

/-- A place in front of the closing parenthesis has depth zero or more inside the group. -/
theorem Closed.depth_nonneg {g : Group} (h : Closed 0 g) {front behind : List Lexeme}
    (hsplit : g.inner ++ g.close :: g.rest = front ++ behind)
    (hbehind : g.rest.length < behind.length) : 0 ≤ depth front := by
  have hprefix : front <+: g.inner := by
    have hlen := congrArg List.length hsplit
    simp only [List.length_append, List.length_cons] at hlen
    have hfront : front <+: g.inner ++ g.close :: g.rest := ⟨behind, hsplit.symm⟩
    exact List.prefix_of_prefix_length_le hfront (List.prefix_append _ _) (by omega)
  simpa using h.neverBelow_inner front hprefix

/-- A group that is not closed never closes more than it opens. -/
theorem neverBelow_of_close?_none {d : Nat} {ls : List Lexeme} (h : close? d ls = none) :
    NeverBelow d ls := by
  induction ls generalizing d with
  | nil => exact neverBelow_nil.mpr (Int.natCast_nonneg d)
  | cons l ls ih =>
    rw [neverBelow_cons]
    refine ⟨Int.natCast_nonneg d, ?_⟩
    rw [close?.eq_def] at h
    simp only at h
    split at h
    · next ho =>
      rw [depthStep_of_open ho]
      exact ih (Option.map_eq_none_iff.mp h)
    · next ho =>
      split at h
      · next hc =>
        -- at depth zero this parenthesis would have been found
        cases d with
        | zero => exact absurd h (by simp)
        | succ d =>
          have htail := ih (Option.map_eq_none_iff.mp h)
          have hdepth : ((d + 1 : Nat) : Int) + depthStep l = d := by
            rw [depthStep_of_close hc]
            omega
          rwa [hdepth]
      · next hc =>
        rw [Bool.not_eq_true] at ho hc
        rw [depthStep_of_other ho hc, Int.add_zero]
        exact ih (Option.map_eq_none_iff.mp h)

/-- A closed group stays closed when more lexemes follow. -/
theorem close?_append_of_some {d : Nat} {ls : List Lexeme} {g : Group} (h : close? d ls = some g)
    (more : List Lexeme) : close? d (ls ++ more) = some { g with rest := g.rest ++ more } := by
  obtain ⟨rfl, hclosed⟩ := close?_extent h
  rw [List.append_assoc, List.cons_append]
  exact close?_append hclosed (g.rest ++ more)

/-- A group that is closed in front of `rest` is closed in front of anything else too. -/
theorem close?_replace {d : Nat} {front rest : List Lexeme} {g : Group}
    (h : close? d (front ++ rest) = some g) (hrest : rest.length ≤ g.rest.length) :
    ∃ more, front = g.inner ++ g.close :: more ∧ g.rest = more ++ rest ∧
      ∀ rest', close? d (front ++ rest') = some { g with rest := more ++ rest' } := by
  obtain ⟨hls, hclosed⟩ := close?_extent h
  -- the rest of the group is longer than what is replaced, so it holds all of it
  obtain ⟨more, hmore⟩ : ∃ more, g.rest = more ++ rest := by
    have hsuffix : g.rest <:+ front ++ rest :=
      ⟨g.inner ++ [g.close], by rw [hls, List.append_assoc]; rfl⟩
    obtain ⟨more, hmore⟩ :=
      List.suffix_of_suffix_length_le (List.suffix_append front rest) hsuffix hrest
    exact ⟨more, hmore.symm⟩
  have hfront : front = g.inner ++ g.close :: more := by
    rw [hmore, ← List.cons_append, ← List.append_assoc] at hls
    exact List.append_cancel_right hls
  refine ⟨more, hfront, hmore, fun rest' => ?_⟩
  rw [hfront, List.append_assoc, List.cons_append]
  exact close?_append hclosed (more ++ rest')

/-- The same for a group with its opening parenthesis. -/
theorem read?_replace {front rest : List Lexeme} {opening : Lexeme} {g : Group}
    (h : read? (front ++ rest) = some (opening, g)) (hrest : rest.length ≤ g.rest.length) :
    ∃ more, front = opening :: (g.inner ++ g.close :: more) ∧ g.rest = more ++ rest ∧
      ∀ rest', read? (front ++ rest') = some (opening, { g with rest := more ++ rest' }) := by
  obtain ⟨hls, hopening, -⟩ := read?_extent h
  cases front with
  | nil =>
    -- the group would then start behind the front, and less would be left than what follows it
    have hlength := congrArg List.length hls
    simp only [List.nil_append, List.length_cons, List.length_append] at hlength
    omega
  | cons l front =>
    obtain ⟨rfl, hfront⟩ := List.cons_eq_cons.mp hls
    rw [List.cons_append, read?, if_pos hopening] at h
    obtain ⟨g', hg, he⟩ := Option.map_eq_some_iff.mp h
    cases he
    obtain ⟨more, rfl, hmore, hreplace⟩ := close?_replace hg hrest
    refine ⟨more, rfl, hmore, fun rest' => ?_⟩
    rw [List.cons_append, read?, if_pos hopening, hreplace]
    rfl

/-- An open group stays open when what follows closes only what it opens itself. -/
theorem close?_append_of_none {d : Nat} {ls more : List Lexeme} (h : close? d ls = none)
    (hmore : NeverBelow 0 more) : close? d (ls ++ more) = none := by
  cases hg : close? d (ls ++ more) with
  | none => rfl
  | some g =>
    exfalso
    obtain ⟨hls, hclosed⟩ := close?_extent hg
    -- a closing parenthesis in `more` would bring the depth of `more` below zero
    have outside : ∀ a, g.inner = ls ++ a → more = a ++ g.close :: g.rest → False := by
      intro a hinner hsplit
      have hlow : 0 ≤ d + depth ls :=
        (hinner ▸ hclosed.neverBelow_inner).of_append_left.depth_nonneg
      have hzero := hclosed.depth_inner
      have hprefix := hmore (a ++ [g.close]) ⟨g.rest, by rw [hsplit]; simp⟩
      rw [hinner, depth_append] at hzero
      rw [depth_append, depth_cons, depthStep_of_close hclosed.close_isPunct, depth_nil] at hprefix
      omega
    rcases List.append_eq_append_iff.mp hls with ⟨a, hinner, hsplit⟩ | ⟨c, hfront, hsplit⟩
    · exact outside a hinner hsplit
    · cases c with
      | nil => exact outside [] (by simpa using hfront.symm) (by simpa using hsplit.symm)
      | cons x c =>
        obtain ⟨rfl, -⟩ := List.cons_eq_cons.mp hsplit
        rw [hfront, close?_append hclosed c] at h
        exact absurd h (by simp)

/-! ## Balance

Balance is checked by counting from the front. The check says no more than that the depth ends at
zero and is never below it, and this form is stable under joining and cutting. -/

/-- The check, at any depth to start from. -/
theorem balancedFrom_iff {d : Nat} {ls : List Lexeme} :
    balancedFrom d ls = true ↔ NeverBelow d ls ∧ d + depth ls = 0 := by
  induction ls generalizing d with
  | nil =>
    rw [neverBelow_nil, balancedFrom, depth_nil, beq_iff_eq]
    omega
  | cons l ls ih =>
    -- by the kind of the first lexeme; each moves the depth at which the rest starts
    rw [neverBelow_cons, depth_cons, balancedFrom.eq_def]
    simp only
    cases ho : l.isPunct .openParen with
    | true =>
      rw [if_pos rfl, ih, depthStep_of_open ho, show ((d + 1 : Nat) : Int) = d + 1 from rfl]
      constructor
      · rintro ⟨hb, hd⟩
        exact ⟨⟨by omega, hb⟩, by omega⟩
      · rintro ⟨⟨-, hb⟩, hd⟩
        exact ⟨hb, by omega⟩
    | false =>
      rw [if_neg (by simp)]
      cases hc : l.isPunct .closeParen with
      | true =>
        rw [if_pos rfl, depthStep_of_close hc]
        cases d with
        | zero =>
          simp only [Bool.false_eq_true, false_iff]
          rintro ⟨⟨-, hb⟩, -⟩
          -- the depth would be negative behind this parenthesis
          have := hb [] List.nil_prefix
          simp at this
        | succ d =>
          rw [ih, show ((d + 1 : Nat) : Int) + -1 = d by omega]
          constructor
          · rintro ⟨hb, hd⟩
            exact ⟨⟨by omega, hb⟩, by omega⟩
          · rintro ⟨⟨-, hb⟩, hd⟩
            exact ⟨hb, by omega⟩
      | false =>
        rw [if_neg (by simp), ih, depthStep_of_other ho hc, Int.add_zero]
        constructor
        · rintro ⟨hb, hd⟩
          exact ⟨⟨by omega, hb⟩, by omega⟩
        · rintro ⟨⟨-, hb⟩, hd⟩
          exact ⟨hb, by omega⟩

/-- **Balance.** -/
theorem balanced_iff {ls : List Lexeme} :
    balanced ls = true ↔ NeverBelow 0 ls ∧ depth ls = 0 := by
  rw [balanced, balancedFrom_iff]
  simp

/-- Every opening parenthesis is closed. -/
def AllClose (ls : List Lexeme) : Prop :=
  ∀ opening rest, opening :: rest <:+ ls → opening.isPunct .openParen = true →
    ∃ g, close? 0 rest = some g

theorem AllClose.of_suffix {ls ls' : List Lexeme} (h : AllClose ls) (hsuffix : ls' <:+ ls) :
    AllClose ls' :=
  fun opening rest hrest => h opening rest (hrest.trans hsuffix)

/-- Where parentheses balance, each one that opens is closed. -/
theorem allClose_of_balanced {ls : List Lexeme} (h : balanced ls = true) : AllClose ls := by
  rintro opening rest ⟨front, rfl⟩ hopening
  obtain ⟨hbelow, hdepth⟩ := balanced_iff.mp h
  cases hclose : close? 0 rest with
  | some g => exact ⟨g, rfl⟩
  | none =>
    -- the open group would keep the depth above zero up to the end
    exfalso
    have hrest : 0 ≤ 0 + depth rest := (neverBelow_of_close?_none hclose).depth_nonneg
    have hfront : 0 ≤ 0 + depth front := hbelow front (List.prefix_append _ _)
    rw [depth_append, depth_cons, depthStep_of_open hopening] at hdepth
    omega

/-- Then a group is missing only where no parenthesis opens one. -/
theorem AllClose.read?_eq_none {ls : List Lexeme} (h : AllClose ls) :
    read? ls = none ↔ Lexeme.startsWith .openParen ls = false := by
  cases ls with
  | nil => exact iff_of_true rfl rfl
  | cons l ls =>
    rw [read?, Lexeme.startsWith]
    split
    · next hl =>
      obtain ⟨g, hg⟩ := h l ls (List.suffix_refl _) hl
      simp [hg, hl]
    · next hl => simpa using hl

end TableDocs.Sql.Group
