import TableDocs.Proofs.Sql.ColumnExtent
import TableDocs.Proofs.Sql.DefinitionExtent

/-!
# TableDocs — attributes in front of a boundary

The reader of attributes looks one lexeme ahead, and for a default value as far as the end of a
group. At the places where it looks for an attribute all this lies behind it:

* **`Detached`** — what can stand there without becoming a part of the attribute before.
* **`exists_endsIn`** — one attribute is read alike whatever detached lexemes follow the boundary,
  but for one whose argument is missing at the end of the definition.
* **`exists_resumes`** — so reading stops and starts again at a boundary.
-/

namespace TableDocs.Sql

namespace ColumnDef

/-- Nothing stands in front, or a word that belongs to no attribute before it. -/
def Detached (ls : List Lexeme) : Prop :=
  ∀ l ∈ ls.head?, l.isWord = true ∧ l.keyword ≠ "SET" ∧ l.keyword ≠ "NULL"

theorem detached_nil : Detached [] := by
  simp [Detached]

section Detached

variable {ls : List Lexeme} (h : Detached ls)
include h

theorem Detached.keywordAt_ne : Lexeme.keywordAt ls ≠ "SET" ∧ Lexeme.keywordAt ls ≠ "NULL" := by
  cases ls with
  | nil => decide
  | cons l ls => exact (h l rfl).2

theorem Detached.startsWith (p : Punct) : Lexeme.startsWith p ls = false := by
  cases ls with
  | nil => rfl
  | cons l ls =>
    have hword := (h l rfl).1
    cases hl : l.kind <;> simp_all [Lexeme.isWord, Lexeme.startsWith, Lexeme.isPunct]

end Detached

/-! ## Default values

A default takes one lexeme or a group, and maybe the group of arguments behind it. Only the last of
these could reach over a boundary, and it does so only where a parenthesis follows. -/

/-- A default value that ends at a boundary or before is the same whatever follows the boundary. -/
theorem splitValue_append {first : Lexeme} {front rest : List Lexeme}
    (hclose : Group.AllClose (first :: (front ++ rest)))
    (hrest : rest.length ≤ (splitValue first (front ++ rest)).2.length) :
    ∃ more, more <:+ front ∧ (splitValue first (front ++ rest)).2 = more ++ rest ∧
      ∀ rest', Lexeme.startsWith .openParen rest' = false →
        splitValue first (front ++ rest') =
          ((splitValue first (front ++ rest)).1, more ++ rest') := by
  by_cases hfirst : first.isPunct .openParen = true
  · -- an expression in parentheses
    obtain ⟨g, hg⟩ := hclose first _ (List.suffix_refl _) hfirst
    rw [splitValue, if_pos hfirst, hg] at hrest
    obtain ⟨more, hfront, hmore, hreplace⟩ := Group.close?_replace hg hrest
    refine ⟨more, ⟨g.inner ++ [g.close], by rw [hfront]; simp⟩, ?_, fun rest' _ => ?_⟩
    · rw [splitValue, if_pos hfirst, hg]
      exact hmore
    · rw [splitValue, if_pos hfirst, hreplace, splitValue, if_pos hfirst, hg]
  · rw [splitValue, if_neg hfirst] at hrest
    cases hread : Group.read? (front ++ rest) with
    | some found =>
      -- a call
      rw [hread] at hrest
      obtain ⟨more, hfront, hmore, hreplace⟩ := Group.read?_replace hread hrest
      refine ⟨more, ⟨found.1 :: found.2.inner ++ [found.2.close], by rw [hfront]; simp⟩, ?_,
        fun rest' _ => ?_⟩
      · rw [splitValue, if_neg hfirst, hread]
        exact hmore
      · rw [splitValue, if_neg hfirst, hreplace, splitValue, if_neg hfirst, hread]
    | none =>
      -- one lexeme
      refine ⟨front, List.suffix_refl _, by rw [splitValue, if_neg hfirst, hread], ?_⟩
      intro rest' h
      have hcall : Group.read? (front ++ rest') = none := by
        cases front with
        | nil =>
          cases rest' with
          | nil => rfl
          | cons l rest' =>
            rw [List.nil_append, Group.read?, if_neg (by simpa [Lexeme.startsWith] using h)]
        | cons l front =>
          have hopening := (hclose.of_suffix (List.suffix_cons _ _)).read?_eq_none.mp hread
          rw [List.cons_append, Group.read?, if_neg (by simpa [Lexeme.startsWith] using hopening)]
      rw [splitValue, if_neg hfirst, hcall, splitValue, if_neg hfirst, hread]

/-! ## One attribute

An attribute that starts in front of a boundary ends in front of it or at it. What follows the
boundary is then of no account, as long as it does not continue the attribute. -/

/-- The attribute that `l` starts ends in `front`: it leaves `more` of it, whatever of `rest` stands
behind, and is heard alike. -/
structure EndsIn (l : Lexeme) (front more rest : List Lexeme) : Prop where
  after : afterAttribute l (front ++ rest) = more ++ rest
  heard : ∀ script a, heard script a l (front ++ rest) = heard script a l front

section Step

variable {l x : Lexeme} {front rest : List Lexeme}

/-- Only a default value and the argument of `CHARACTER SET` reach beyond the next lexeme. -/
theorem afterAttribute_cons (hl : l.keyword ≠ "DEFAULT") :
    (argument? [l, x] = some [] ∧ ∀ ls, afterAttribute l (x :: ls) = ls.drop 1) ∨
      (∀ ls, afterAttribute l (x :: ls) = ls) ∨ ∀ ls, afterAttribute l (x :: ls) = x :: ls := by
  -- the attribute has an argument, belongs to a marker of two words, or stands alone
  by_cases hset : (l.keyword = "CHARACTER" && Lexeme.keywordAt [x] = "SET") = true
  · exact .inl ⟨if_pos hset, fun ls => if_pos hset⟩
  right
  by_cases hword : (l.keyword = "CHARSET" || l.keyword = "COLLATE") = true
  · exact .inl fun ls => (if_neg hset).trans (if_pos hword)
  by_cases hnull : (l.keyword = "NOT" && Lexeme.keywordAt [x] = "NULL") = true
  · exact .inl fun ls => (if_neg hset).trans ((if_neg hword).trans (if_pos hnull))
  by_cases hcomment : l.keyword = "COMMENT"
  · cases hx : x.kind with
    | literal text quote => exact .inl fun ls => by simp [afterAttribute, hcomment, hx]
    | _ => exact .inr fun ls => by simp [afterAttribute, hcomment, hx]
  · exact .inr fun ls => (if_neg hset).trans ((if_neg hword).trans ((if_neg hnull).trans
      ((if_neg hl).trans (if_neg hcomment))))

/-- Of all attributes only a default value is heard in more than one lexeme. -/
theorem heard_cons (hl : l.keyword ≠ "DEFAULT") (script : Array Char) (a : Attributes)
    (ls : List Lexeme) : heard script a l (x :: ls) = heard script a l [x] := by
  have hnull : isNotNull (l :: x :: ls) = isNotNull [l, x] := rfl
  rw [heard.eq_def, heard.eq_def, hnull, if_neg hl, if_neg hl]

/-- An attribute that passes over nothing is not heard. -/
theorem heard_of_afterAttribute_eq (hl : l.keyword ≠ "DEFAULT") (h : afterAttribute l rest = rest)
    (script : Array Char) (a : Attributes) : heard script a l rest = a := by
  cases rest with
  | nil => simp [heard, isNotNull, Lexeme.keywordAt, hl]
  | cons x rest =>
    have hshorter : afterAttribute l (x :: rest) ≠ rest := by
      rw [h]
      exact List.cons_ne_self x rest
    -- both attributes that are heard take the lexeme behind them as well
    have hnull : isNotNull (l :: x :: rest) = false := by
      rw [← Bool.not_eq_true]
      intro hnull
      have hkeyword : l.keyword = "NOT" := of_decide_eq_true (Bool.and_eq_true_iff.mp hnull).1
      have hafter : afterAttribute l (x :: rest) = rest := by
        simp only [isNotNull] at hnull
        simp only [afterAttribute, hnull]
        simp [hkeyword]
      exact hshorter hafter
    rw [heard.eq_def, hnull, if_neg (by decide), if_neg hl]
    split
    · next hcomment =>
      cases hx : x.kind with
      | literal text quote =>
        exact absurd (by simp [afterAttribute, hcomment, hx]) hshorter
      | _ => simp [hx]
    · rfl

/-- Detached lexemes belong to no attribute in front of them that takes no argument. -/
theorem afterAttribute_of_detached
    (hl : ["CHARSET", "COLLATE", "DEFAULT"].contains l.keyword = false) (h : Detached rest) :
    afterAttribute l rest = rest := by
  have hset : Lexeme.keywordAt rest ≠ "SET" := h.keywordAt_ne.1
  have hnull : Lexeme.keywordAt rest ≠ "NULL" := h.keywordAt_ne.2
  simp only [List.contains_eq_mem, List.mem_cons, List.not_mem_nil, or_false, not_or,
    decide_eq_false_iff_not] at hl
  obtain ⟨hcharset, hcollate, hdefault⟩ := hl
  cases rest with
  | nil => simp [afterAttribute, hcharset, hcollate, hdefault, hset, hnull]
  | cons x rest =>
    have hword := (h x rfl).1
    simp only [afterAttribute, hcharset, hcollate, hdefault, hset, hnull]
    cases hx : x.kind <;> simp_all [Lexeme.isWord]

/-- An attribute that ends right in front of a boundary does not need what follows. -/
theorem endsIn_nil (hrest : rest.length ≤ (afterAttribute l rest).length)
    (hcomplete : rest = [] → argument? [l] ≠ some []) :
    EndsIn l [] [] rest ∧ ∀ rest', Detached rest' → EndsIn l [] [] rest' := by
  have hplain : ["CHARSET", "COLLATE", "DEFAULT"].contains l.keyword = false := by
    rw [← Bool.not_eq_true]
    intro hl
    -- such a word would have its argument behind it
    have hargument : ∀ ls, argument? (l :: ls) = some ls := by
      intro ls
      have hcharacter : l.keyword ≠ "CHARACTER" := by
        intro h
        rw [h] at hl
        exact absurd hl (by decide)
      rw [argument?, if_neg (by simp [hcharacter]), if_pos hl]
    by_cases hnil : rest = []
    · exact hcomplete hnil (hargument [])
    · have := (argument_between (hargument rest) hnil).1
      omega
  have hdefault : l.keyword ≠ "DEFAULT" := by
    intro h
    rw [h] at hplain
    exact absurd hplain (by decide)
  have hends : ∀ ls, afterAttribute l ls = ls → EndsIn l [] [] ls := by
    intro ls h
    refine ⟨h, fun script a => ?_⟩
    have hnil : afterAttribute l [] = [] := afterAttribute_of_detached hplain detached_nil
    rw [List.nil_append, heard_of_afterAttribute_eq hdefault h,
      heard_of_afterAttribute_eq hdefault hnil]
  have hafter : afterAttribute l rest = rest :=
    (passed_afterAttribute l rest).suffix.eq_of_length_le hrest
  exact ⟨hends rest hafter, fun rest' h => hends rest' (afterAttribute_of_detached hplain h)⟩

/-- A default ends in front of the boundary. -/
theorem endsIn_default (hl : l.keyword = "DEFAULT")
    (hclose : Group.AllClose (x :: (front ++ rest)))
    (hrest : rest.length ≤ (splitValue x (front ++ rest)).2.length) :
    ∃ more, more <:+ front ∧ EndsIn l (x :: front) more rest ∧
      ∀ rest', Detached rest' → EndsIn l (x :: front) more rest' := by
  have hafter : ∀ ls, afterAttribute l (x :: ls) = (splitValue x ls).2 := by
    intro ls
    simp [afterAttribute, hl]
  have hheard : ∀ script a ls, heard script a l (x :: ls) =
      { a with default? := some (valueText script x (splitValue x ls).1) } := by
    intro script a ls
    simp [heard, isNotNull, hl]
  -- the value ends in front of the boundary, whatever stands behind it
  obtain ⟨more, hmore, hsplit, hreplace⟩ := splitValue_append hclose hrest
  have hnil := hreplace [] rfl
  rw [List.append_nil] at hnil
  refine ⟨more, hmore, ⟨?_, fun script a => ?_⟩, fun rest' h => ⟨?_, fun script a => ?_⟩⟩
  · rw [List.cons_append, hafter, hsplit]
  · rw [List.cons_append, hheard, hheard, hnil]
  · rw [List.cons_append, hafter, hreplace rest' (h.startsWith _)]
  · rw [List.cons_append, hheard, hheard, hnil, hreplace rest' (h.startsWith _)]

/-- **One attribute in front of a boundary** ends there, whatever detached lexemes follow, unless
its argument is missing. -/
theorem exists_endsIn (hclose : Group.AllClose (front ++ rest))
    (hrest : rest.length ≤ (afterAttribute l (front ++ rest)).length)
    (hcomplete : rest = [] → argument? (l :: front) ≠ some []) :
    ∃ more, more <:+ front ∧ EndsIn l front more rest ∧
      ∀ rest', Detached rest' → EndsIn l front more rest' := by
  cases front with
  | nil => exact ⟨[], List.suffix_refl _, endsIn_nil hrest hcomplete⟩
  | cons x front =>
    by_cases hdefault : l.keyword = "DEFAULT"
    · have hvalue : afterAttribute l (x :: (front ++ rest)) = (splitValue x (front ++ rest)).2 := by
        simp [afterAttribute, hdefault]
      rw [List.cons_append, hvalue] at hrest
      obtain ⟨more, hmore, h⟩ := endsIn_default hdefault hclose hrest
      exact ⟨more, hmore.trans (List.suffix_cons _ _), h⟩
    · -- what the attribute leaves of any lexemes behind `x`
      have hends : ∀ more, (∀ ls, afterAttribute l (x :: (front ++ ls)) = more ++ ls) →
          ∀ ls, EndsIn l (x :: front) more ls := by
        intro more hafter ls
        refine ⟨hafter ls, fun script a => ?_⟩
        rw [List.cons_append, heard_cons hdefault, heard_cons hdefault _ _ front]
      rcases afterAttribute_cons (x := x) hdefault with ⟨hargument, hafter⟩ | hafter | hafter
      · cases front with
        | nil =>
          rw [List.cons_append, List.nil_append, hafter, List.length_drop] at hrest
          have hnil : rest = [] := List.eq_nil_of_length_eq_zero (by omega)
          exact absurd hargument (hcomplete hnil)
        | cons y front =>
          have h := hends front fun ls => hafter _
          exact ⟨front, ⟨[x, y], rfl⟩, h rest, fun rest' _ => h rest'⟩
      · have h := hends front fun ls => hafter _
        exact ⟨front, List.suffix_cons _ _, h rest, fun rest' _ => h rest'⟩
      · have h := hends (x :: front) fun ls => hafter _
        exact ⟨x :: front, List.suffix_refl _, h rest, fun rest' _ => h rest'⟩

/-- An attribute whose argument is missing takes the first lexeme that follows for it. -/
theorem step_of_missing (hmissing : argument? (l :: front) = some []) (hl : l.keyword ≠ "DEFAULT")
    (rest : List Lexeme) : afterAttribute l (front ++ rest) = rest.drop 1 ∧
      ∀ script a, heard script a l (front ++ rest) = a := by
  -- an attribute that lacks its argument is one of the qualifiers, and none of these is heard
  have hdeaf : l.keyword ≠ "NOT" → l.keyword ≠ "COMMENT" → ∀ script a ls,
      heard script a l ls = a := by
    intro hnot hcomment script a ls
    rw [heard.eq_def, if_neg (by simp [isNotNull, hnot]), if_neg hl, if_neg hcomment]
  rw [argument?] at hmissing
  split at hmissing
  · next hset =>
    obtain ⟨hcharacter, hset⟩ : l.keyword = "CHARACTER" ∧ Lexeme.keywordAt front = "SET" := by
      simpa using hset
    cases front with
    | nil => exact absurd hset (by decide)
    | cons set front =>
      obtain rfl : front = [] := Option.some.inj hmissing
      have hset : set.keyword = "SET" := hset
      constructor
      · simp [afterAttribute, Lexeme.keywordAt, hcharacter, hset]
      · intro script a
        exact hdeaf (by rw [hcharacter]; decide) (by rw [hcharacter]; decide) ..
  · split at hmissing
    · next hword =>
      obtain rfl : front = [] := Option.some.inj hmissing
      have hword : l.keyword = "CHARSET" ∨ l.keyword = "COLLATE" := by
        simpa [hl] using hword
      rcases hword with hword | hword <;>
        exact ⟨by simp [afterAttribute, hword],
          fun script a => hdeaf (by rw [hword]; decide) (by rw [hword]; decide) ..⟩
    · exact absurd hmissing (by simp)

end Step

/-! ## All attributes in front of a boundary

The attributes in front of a boundary are read one by one. Either the reader comes to the boundary
itself, or the last attribute lacks its argument and takes one lexeme from behind it. -/

theorem readAttributes_nil (script : Array Char) (a : Attributes) :
    readAttributes script a [] = a := by
  rw [readAttributes]

/-- Reading stops behind `front` and starts again with `rest`. With other lexemes in its place the
first `taken` of them are lost. -/
structure Resumes (script : Array Char) (a : Attributes) (front rest : List Lexeme) (taken : Nat) :
    Prop where
  rest : readAttributes script a (front ++ rest) =
    readAttributes script (readAttributes script a front) rest
  detached : ∀ rest', Detached rest' → readAttributes script a (front ++ rest') =
    readAttributes script (readAttributes script a front) (rest'.drop taken)

section Resumes

variable {script : Array Char} {a : Attributes} {l : Lexeme} {front more rest : List Lexeme}
  {taken : Nat}

theorem resumes_nil : Resumes script a [] rest 0 := by
  constructor <;> simp [readAttributes_nil]

/-- An attribute without its argument takes the next lexeme for it. -/
theorem resumes_of_missing (hmissing : argument? (l :: front) = some [])
    (hl : l.keyword ≠ "DEFAULT") : Resumes script a (l :: front) [] 1 := by
  have hstep : ∀ rest', readAttributes script a (l :: front ++ rest') =
      readAttributes script a (rest'.drop 1) := by
    intro rest'
    obtain ⟨hafter, hheard⟩ := step_of_missing hmissing hl rest'
    rw [List.cons_append, readAttributes_step, hheard, hafter]
  have hfront : readAttributes script a (l :: front) = a := by
    have := hstep []
    rwa [List.append_nil, List.drop_nil, readAttributes_nil] at this
  constructor
  · rw [hfront, List.append_nil, hfront, readAttributes_nil]
  · intro rest' _
    rw [hstep, hfront]

/-- One more attribute in front. -/
theorem Resumes.cons (h : Resumes script (heard script a l front) more rest taken)
    (hends : EndsIn l front more rest)
    (hends' : ∀ rest', Detached rest' → EndsIn l front more rest') :
    Resumes script a (l :: front) rest taken := by
  -- one attribute is read, and the rest of the front is what the hypothesis is about
  have hstep : ∀ ls, EndsIn l front more ls → readAttributes script a (l :: front ++ ls) =
      readAttributes script (heard script a l front) (more ++ ls) := by
    intro ls h
    rw [List.cons_append, readAttributes_step, h.after, h.heard]
  have hfront : readAttributes script a (l :: front) =
      readAttributes script (heard script a l front) more := by
    have := hstep [] (hends' [] detached_nil)
    rwa [List.append_nil, List.append_nil] at this
  constructor
  · rw [hstep rest hends, hfront, h.rest]
  · intro rest' hdetached
    rw [hstep rest' (hends' rest' hdetached), hfront, h.detached rest' hdetached]

end Resumes

/-- The word `DEFAULT` is without an argument only at the very end. -/
theorem keyword_ne_default_of_missing {l : Lexeme} {front : List Lexeme}
    (hmissing : argument? (l :: front) = some [])
    (hlast : ∀ x ∈ (l :: front).getLast?, x.keyword ≠ "DEFAULT") : l.keyword ≠ "DEFAULT" := by
  intro hl
  have hnil : front = [] := by
    rw [argument?, if_neg (by simp [hl]), if_pos (by rw [hl]; decide)] at hmissing
    exact Option.some.inj hmissing
  subst hnil
  exact hlast l rfl hl

/-- **Reading stops and starts again at a boundary.** What is read in front of it does not depend on
what follows. Only at the end of the definition one lexeme more can be taken, for a missing
argument. -/
theorem exists_resumes {front rest : List Lexeme} (hclose : Group.AllClose (front ++ rest))
    (hstart : rest ∈ attributeStarts (front ++ rest))
    (hlast : rest = [] → ∀ l ∈ front.getLast?, l.keyword ≠ "DEFAULT") (script : Array Char)
    (a : Attributes) :
    ∃ taken ≤ 1, (rest ≠ [] → taken = 0) ∧ Resumes script a front rest taken := by
  -- The induction takes the attributes off the front one by one.
  induction hlength : front.length using Nat.strongRecOn generalizing front a with
  | ind n ih =>
    cases front with
    | nil => exact ⟨0, by decide, fun _ => rfl, resumes_nil⟩
    | cons l front =>
      have hbehind : rest ∈ attributeStarts (afterAttribute l (front ++ rest)) := by
        rw [List.cons_append, attributeStarts] at hstart
        rcases List.mem_cons.mp hstart with he | hstart
        · have := congrArg List.length he
          simp only [List.length_cons, List.length_append] at this
          omega
        · exact hstart
      by_cases hmissing : rest = [] ∧ argument? (l :: front) = some []
      · obtain ⟨rfl, hmissing⟩ := hmissing
        have hdefault := keyword_ne_default_of_missing hmissing (hlast rfl)
        exact ⟨1, Nat.le_refl 1, fun h => absurd rfl h, resumes_of_missing hmissing hdefault⟩
      · have hrest := (suffix_of_mem_attributeStarts hbehind).length_le
        obtain ⟨more, hmore, hends, hends'⟩ :=
          exists_endsIn (hclose.of_suffix (List.suffix_cons l _)) hrest fun h h' => hmissing ⟨h, h'⟩
        have hsuffix : more ++ rest <:+ l :: front ++ rest := by
          rw [← hends.after]
          exact (passed_afterAttribute l _).suffix.trans (List.suffix_cons l _)
        have hlast' : rest = [] → ∀ x ∈ more.getLast?, x.keyword ≠ "DEFAULT" := by
          obtain ⟨passed, rfl⟩ := hmore
          intro hnil x hx
          refine hlast hnil x ?_
          rw [← List.cons_append, List.getLast?_append, hx]
          rfl
        have hlt : more.length < n := by
          have := hmore.length_le
          rw [List.length_cons] at hlength
          omega
        rw [hends.after] at hbehind
        obtain ⟨taken, htaken, hzero, hresumes⟩ := ih more.length hlt
          (hclose.of_suffix hsuffix) hbehind hlast' (heard script a l front) rfl
        exact ⟨taken, htaken, hzero, hresumes.cons hends hends'⟩

end ColumnDef

end TableDocs.Sql
