import TableDocs.Json.Reader
import TableDocs.Proofs.Json.Scalar

/-!
# TableDocs — reading what was printed

A value that is printed and read is the same value, at every depth and every indentation, negative
ones included. The proof goes by way of the tokens of a value:

* **`ofText?_print`** — cutting the printed text gives the tokens of the value: line breaks and
  indentation leave no trace.
* **`run_tokens`** — the machine turns the tokens of a value into that value, whatever is open
  around it.
* **`read?_print`** — so the reader undoes the printer.

Numbers with a fraction and values of no kind of JSON are left out: `Faithful`.
-/

namespace TableDocs.Json

open TableDocs.Data

/-- The values that are printed as themselves: all whose scalars are null, truth values, integers
and texts. -/
inductive Faithful : Value → Prop
  | null : Faithful .null
  | bool (b : Bool) : Faithful (.bool b)
  | int (n : Int) : Faithful (.int n)
  | text (s : String) : Faithful (.text s)
  | list {vs : List Value} (hvs : ∀ v ∈ vs, Faithful v) : Faithful (.list vs)
  | object {ms : List (String × Value)} (hms : ∀ m ∈ ms, Faithful m.2) : Faithful (.object ms)

mutual

/-- The tokens of a value. -/
def tokens : Value → List Token
  | .list [] => [.openList, .closeList]
  | .list (v :: vs) => .openList :: tokens v ++ itemTokens vs ++ [.closeList]
  | .object [] => [.openObject, .closeObject]
  | .object ((key, v) :: ms) =>
    .openObject :: .scalar (.text key) :: .colon :: tokens v ++ memberTokens ms ++ [.closeObject]
  | v => [.scalar v]

/-- The tokens of the items behind the first one. -/
def itemTokens : List Value → List Token
  | [] => []
  | v :: vs => .comma :: tokens v ++ itemTokens vs

/-- The tokens of the members behind the first one. -/
def memberTokens : List (String × Value) → List Token
  | [] => []
  | (key, v) :: ms => .comma :: .scalar (.text key) :: .colon :: tokens v ++ memberTokens ms

end

/-! ## From text to tokens

A printed value is followed by a line break, a comma or a closing mark. None of these can go on with
a number, which is all that the tokens of a value ask of what follows. -/

section Text

open Token

/-- No number goes on behind a line break. -/
theorem endsNumber_lineBreak (width : Int) (depth : Nat) (cs : List Char) :
    EndsNumber (lineBreak width depth ++ cs) := by
  rw [lineBreak, List.cons_append]
  exact endsNumber_cons (by decide)

/-- The items behind the first one begin with a comma, if there are any. -/
theorem endsNumber_printItems (width : Int) (depth : Nat) (vs : List Value) {cs : List Char}
    (h : EndsNumber cs) : EndsNumber (printItems width depth vs ++ cs) := by
  cases vs with
  | nil => exact h
  | cons v vs =>
    rw [printItems]
    exact endsNumber_cons (by decide)

/-- So do the members. -/
theorem endsNumber_printMembers (width : Int) (depth : Nat) (ms : List (String × Value))
    {cs : List Char} (h : EndsNumber cs) : EndsNumber (printMembers width depth ms ++ cs) := by
  cases ms with
  | nil => exact h
  | cons m ms =>
    rw [printMembers]
    exact endsNumber_cons (by decide)

/-- The printed text of a value is cut into its tokens. -/
def CutsRight (width : Int) (v : Value) : Prop :=
  ∀ depth {cs : List Char}, EndsNumber cs →
    ofText? (print width depth v ++ cs) = (ofText? cs).map (tokens v ++ ·)

variable {width : Int}

/-- The further items of a list. -/
theorem ofText?_printItems {vs : List Value} (hvs : ∀ v ∈ vs, CutsRight width v) (depth : Nat)
    {cs : List Char} (h : EndsNumber cs) :
    ofText? (printItems width depth vs ++ cs) = (ofText? cs).map (itemTokens vs ++ ·) := by
  induction vs with
  | nil => simp [printItems, itemTokens]
  | cons v vs ih =>
    have hv := hvs v List.mem_cons_self
    have hrest := ih fun w hw => hvs w (List.mem_cons_of_mem v hw)
    have hends := endsNumber_printItems width depth vs h
    simp only [printItems, itemTokens, List.cons_append, List.append_assoc]
    rw [ofText?_of_token .comma (by decide) rfl, ofText?_lineBreak, hv depth hends, hrest]
    simp [Function.comp_def]

/-- A key with its colon. -/
theorem ofText?_key (key : String) (cs : List Char) :
    ofText? (quote key ++ ':' :: ' ' :: cs) =
      (ofText? cs).map (.scalar (.text key) :: .colon :: ·) := by
  rw [ofText?_quote, ofText?_of_token .colon (c := ':') (by decide) rfl,
    ofText?_of_blank (by decide), Option.map_map]
  rfl

/-- The further members of an object. -/
theorem ofText?_printMembers {ms : List (String × Value)} (hms : ∀ m ∈ ms, CutsRight width m.2)
    (depth : Nat) {cs : List Char} (h : EndsNumber cs) :
    ofText? (printMembers width depth ms ++ cs) = (ofText? cs).map (memberTokens ms ++ ·) := by
  induction ms with
  | nil => simp [printMembers, memberTokens]
  | cons m ms ih =>
    have hm := hms m List.mem_cons_self
    have hrest := ih fun w hw => hms w (List.mem_cons_of_mem m hw)
    have hends := endsNumber_printMembers width depth ms h
    simp only [printMembers, memberTokens, List.cons_append, List.append_assoc, List.nil_append]
    rw [ofText?_of_token .comma (by decide) rfl, ofText?_lineBreak, ofText?_key,
      hm depth hends, hrest]
    simp [Function.comp_def]

/-- **From text to tokens.** -/
theorem ofText?_print {v : Value} (hv : Faithful v) : CutsRight width v := by
  induction hv with
  | null =>
    intro depth cs _
    exact ofText?_of_token (.scalar .null) (c := 'n') (by decide) rfl
  | bool b =>
    intro depth cs _
    cases b with
    | true => exact ofText?_of_token (.scalar (.bool true)) (c := 't') (by decide) rfl
    | false => exact ofText?_of_token (.scalar (.bool false)) (c := 'f') (by decide) rfl
  | int n =>
    intro depth cs h
    exact ofText?_printInt n h
  | text s =>
    intro depth cs _
    exact ofText?_quote s cs
  | @list vs hvs ih =>
    intro depth cs _
    cases vs with
    | nil =>
      show ofText? ('[' :: ']' :: cs) = _
      rw [ofText?_of_token .openList (by decide) rfl,
        ofText?_of_token .closeList (by decide) rfl, Option.map_map]
      rfl
    | cons v vs =>
      have hv := ih v List.mem_cons_self
      have hrest := ofText?_printItems fun w hw => ih w (List.mem_cons_of_mem v hw)
      have hbreak := endsNumber_lineBreak width depth (']' :: cs)
      have hends := endsNumber_printItems width (depth + 1) vs hbreak
      -- the mark, the first item and the further ones, each behind its line break
      simp only [print, tokens, List.cons_append, List.append_assoc, List.nil_append]
      rw [ofText?_of_token .openList (by decide) rfl, ofText?_lineBreak,
        hv (depth + 1) hends, hrest (depth + 1) hbreak, ofText?_lineBreak,
        ofText?_of_token .closeList (by decide) rfl]
      simp [Function.comp_def]
  | @object ms hms ih =>
    intro depth cs _
    cases ms with
    | nil =>
      show ofText? ('\x7b' :: '\x7d' :: cs) = _
      rw [ofText?_of_token .openObject (by decide) rfl,
        ofText?_of_token .closeObject (by decide) rfl, Option.map_map]
      rfl
    | cons m ms =>
      have hm := ih m List.mem_cons_self
      have hrest := ofText?_printMembers fun w hw => ih w (List.mem_cons_of_mem m hw)
      have hbreak := endsNumber_lineBreak width depth ('\x7d' :: cs)
      have hends := endsNumber_printMembers width (depth + 1) ms hbreak
      simp only [print, tokens, List.cons_append, List.append_assoc, List.nil_append]
      rw [ofText?_of_token .openObject (by decide) rfl, ofText?_lineBreak, ofText?_key,
        hm (depth + 1) hends, hrest (depth + 1) hbreak, ofText?_lineBreak,
        ofText?_of_token .closeObject (by decide) rfl]
      simp [Function.comp_def]

end Text

/-! ## From tokens to a value

The machine keeps what is open in a stack of frames. A value that is complete goes into the frame on
top, whatever the frames below hold, so the induction is over the value with any frames. -/

namespace Machine

/-- Where a list may end, a value may start just as well. -/
theorem run_firstItem (v : Value) (frames : List Frame) (ts : List Token) :
    (⟨frames, .firstItem⟩ : Machine).run (tokens v ++ ts) =
      (⟨frames, .value⟩ : Machine).run (tokens v ++ ts) := by
  have first : ∃ token more, tokens v = token :: more ∧ token ≠ .closeList := by
    cases v with
    | list vs => cases vs <;> exact ⟨_, _, rfl, by simp⟩
    | object ms => cases ms <;> exact ⟨_, _, rfl, by simp⟩
    | _ => exact ⟨_, _, rfl, by simp⟩
  obtain ⟨token, more, htokens, htoken⟩ := first
  rw [htokens, List.cons_append, run, run]
  cases token with
  | closeList => exact absurd rfl htoken
  | _ => rfl

/-- The machine turns the tokens of a value into that value. -/
def BuildsRight (v : Value) : Prop :=
  ∀ frames ts, (⟨frames, .value⟩ : Machine).run (tokens v ++ ts) = (put v frames).run ts

/-- The items that are already there stand last one first. -/
theorem run_itemTokens {vs : List Value} (hvs : ∀ v ∈ vs, BuildsRight v) (done : List Value)
    (frames : List Frame) (ts : List Token) :
    (⟨.list done :: frames, .separator⟩ : Machine).run (itemTokens vs ++ .closeList :: ts) =
      (put (.list (done.reverse ++ vs)) frames).run ts := by
  induction vs generalizing done with
  | nil =>
    rw [itemTokens, List.nil_append, List.append_nil, run]
    rfl
  | cons v vs ih =>
    have hv := hvs v List.mem_cons_self
    have hrest := ih (fun w hw => hvs w (List.mem_cons_of_mem v hw)) (v :: done)
    rw [itemTokens, List.cons_append, List.cons_append, run]
    -- behind the comma a value starts, and it ends up on top of the open list
    show (⟨.list done :: frames, .value⟩ : Machine).run _ = _
    rw [List.append_assoc, hv]
    show (⟨.list (v :: done) :: frames, .separator⟩ : Machine).run _ = _
    rw [hrest, List.reverse_cons, List.append_assoc, List.singleton_append]

/-- The members that are already there stand last one first too. -/
theorem run_memberTokens {ms : List (String × Value)} (hms : ∀ m ∈ ms, BuildsRight m.2)
    (done : List (String × Value)) (frames : List Frame) (ts : List Token) :
    (⟨.object done :: frames, .separator⟩ : Machine).run (memberTokens ms ++ .closeObject :: ts) =
      (put (.object (done.reverse ++ ms)) frames).run ts := by
  induction ms generalizing done with
  | nil =>
    rw [memberTokens, List.nil_append, List.append_nil, run]
    rfl
  | cons m ms ih =>
    obtain ⟨key, v⟩ := m
    have hv := hms (key, v) List.mem_cons_self
    have hrest := ih (fun w hw => hms w (List.mem_cons_of_mem (key, v) hw)) ((key, v) :: done)
    rw [memberTokens, List.cons_append, List.cons_append, List.cons_append, List.cons_append, run]
    -- behind the comma come the key, which the machine keeps, and the colon
    show (⟨.object done :: frames, .key⟩ : Machine).run
      (.scalar (.text key) :: .colon :: (tokens v ++ memberTokens ms ++ .closeObject :: ts)) = _
    show (⟨.member done key :: frames, .value⟩ : Machine).run _ = _
    rw [List.append_assoc, hv]
    show (⟨.object ((key, v) :: done) :: frames, .separator⟩ : Machine).run _ = _
    rw [hrest, List.reverse_cons, List.append_assoc, List.singleton_append]

/-- **From tokens to a value.** -/
theorem run_tokens {v : Value} (hv : Faithful v) : BuildsRight v := by
  induction hv with
  | null => intro frames ts; rfl
  | bool b => intro frames ts; rfl
  | int n => intro frames ts; rfl
  | text s => intro frames ts; rfl
  | @list vs hvs ih =>
    intro frames ts
    cases vs with
    | nil => rfl
    | cons v vs =>
      have hv := ih v List.mem_cons_self
      have hrest := run_itemTokens fun w hw => ih w (List.mem_cons_of_mem v hw)
      rw [tokens, List.cons_append, List.append_assoc, List.singleton_append]
      -- a new list is open, and its first item is read like any other value
      show (⟨.list [] :: frames, .firstItem⟩ : Machine).run
        (tokens v ++ itemTokens vs ++ .closeList :: ts) = _
      rw [List.append_assoc, run_firstItem, hv]
      exact hrest [v] frames ts
  | @object ms hms ih =>
    intro frames ts
    cases ms with
    | nil => rfl
    | cons m ms =>
      obtain ⟨key, v⟩ := m
      have hv := ih (key, v) List.mem_cons_self
      have hrest := run_memberTokens fun w hw => ih w (List.mem_cons_of_mem (key, v) hw)
      rw [tokens, List.append_assoc, List.singleton_append]
      -- a new object is open, and the machine has the first key and its colon behind it
      show (⟨.member [] key :: frames, .value⟩ : Machine).run
        (tokens v ++ memberTokens ms ++ .closeObject :: ts) = _
      rw [List.append_assoc, hv]
      exact hrest [(key, v)] frames ts

end Machine

/-- **The reader undoes the printer.** -/
theorem read?_print {v : Value} (hv : Faithful v) (width : Int) :
    read? (print width 0 v ++ ['\n']) = some v := by
  have hends : Token.EndsNumber ['\n'] := Token.endsNumber_cons (by decide)
  have hblank : Token.ofText? ['\n'] = some [] := by
    rw [Token.ofText?_of_blank (by decide), Token.ofText?]
  rw [read?, ofText?_print hv 0 hends, hblank, Option.map_some, Option.bind_some, Machine.start,
    Machine.run_tokens hv]
  rfl

end TableDocs.Json
