import TableDocs.Text.Digit

/-!
# TableDocs — arguments and options

The arguments of a command are options and values. An option starts with a dash; a long one, with
two dashes, may be cut short as long as it stays the only one with that start. Two dashes alone end
the options. What an argument is does not depend on the arguments around it, except for that end.
-/

namespace TableDocs.CommandLine

/-- An option that is known in some place. -/
structure OptionForm (κ : Type) where
  key : κ
  /-- With the dashes. -/
  names : List String
  takesValue : Bool

/-- What an argument is. -/
inductive Reading (κ : Type)
  | value
  /-- Two dashes that end the options. -/
  | separator
  /-- A known option, the name that names it in full and the text attached to it. -/
  | option (form : OptionForm κ) (name : String) (attached? : Option String)
  | unknownOption

namespace OptionForm

variable {κ : Type}

/-- The option with exactly a name. -/
def find? (forms : List (OptionForm κ)) (name : String) : Option (OptionForm κ) :=
  forms.find? fun f => f.names.contains name

/-- Cuts an argument at its first equals sign. -/
def splitEquals (cs : List Char) : String × Option String :=
  let name := cs.takeWhile (· != '=')
  match cs.drop name.length with
  | [] => (String.ofList name, none)
  | _ :: rest => (String.ofList name, some (String.ofList rest))

/-- The options that a long name may stand for, cut short. -/
def longCandidates (forms : List (OptionForm κ)) (cs : List Char) : List (Reading κ) :=
  let (start, attached?) := splitEquals cs
  forms.flatMap fun f =>
    (f.names.filter fun name => start.toList.isPrefixOf name.toList).map fun name =>
      .option f name attached?

/-- The option that a short name stands for, with everything behind it attached. -/
def shortCandidates (forms : List (OptionForm κ)) (dash letter : Char) (rest : List Char) :
    List (Reading κ) :=
  let name := String.ofList [dash, letter]
  (find? forms name).toList.map fun f => .option f name (some (String.ofList rest))

/-- Is the text a negative number? A line feed may follow it. -/
def isNegativeNumber (cs : List Char) : Bool :=
  let isDecimal (c : Char) : Bool := (Text.decimalValue? c).isSome
  match if cs.getLast? == some '\n' then cs.dropLast else cs with
  | '-' :: number =>
    match number.dropWhile isDecimal with
    | [] => !number.isEmpty
    | '.' :: places => !places.isEmpty && places.all isDecimal
    | _ => false
  | _ => false

/-- Reads an argument that starts with a dash and is no exact name of an option. Negative numbers
and texts with a space are values unless they start an option. The start of several options is not
readable. -/
def readDashed? (forms : List (OptionForm κ)) (cs : List Char) : Option (Reading κ) :=
  let candidates :=
    match cs with
    | '-' :: '-' :: _ => longCandidates forms cs
    | dash :: letter :: rest => shortCandidates forms dash letter rest
    | _ => []
  match candidates with
  | [] => some (if isNegativeNumber cs || cs.contains ' ' then .value else .unknownOption)
  | [reading] => some reading
  | _ => none

/-- Reads an argument on its own. -/
def read? (forms : List (OptionForm κ)) (arg : String) : Option (Reading κ) :=
  match arg.toList with
  | '-' :: letter :: rest =>
    match find? forms arg with
    | some f => some (.option f arg none)
    | none =>
      match splitEquals ('-' :: letter :: rest) with
      | (name, some attached) =>
        match find? forms name with
        | some f => some (.option f name (some attached))
        | none => readDashed? forms ('-' :: letter :: rest)
      | _ => readDashed? forms ('-' :: letter :: rest)
  | _ => some .value

/-- Reads all arguments; behind the separator all are values. -/
def readAll? (forms : List (OptionForm κ)) : List String → Option (List (String × Reading κ))
  | [] => some []
  | arg :: args =>
    if arg = "--" then some ((arg, .separator) :: args.map fun a => (a, .value))
    else do
      let reading ← read? forms arg
      let readings ← readAll? forms args
      return (arg, reading) :: readings

/-- The further options that the text attached to a short one stands for, a letter each. None of
them takes a value. -/
def ofLetters? (forms : List (OptionForm κ)) (name text : String) :
    Option (List (OptionForm κ)) :=
  if name.length = 2 && !text.isEmpty then
    text.toList.mapM fun letter =>
      (find? forms (String.ofList ['-', letter])).filter fun f => !f.takesValue
  else none

end OptionForm

/-! ## What the arguments say, one after the other -/

/-- One thing that arguments say. -/
inductive Event (κ : Type)
  /-- An option, with its value or an empty text. -/
  | option (key : κ) (value : String)
  | value (text : String)
  /-- An argument that has no place. -/
  | unexpected
  /-- Nothing can be made of the arguments from here on. -/
  | unreadable

namespace Event

variable {κ : Type}

/-- What an option says, and the arguments that it leaves. -/
def ofOption (forms : List (OptionForm κ)) (form : OptionForm κ) (name : String)
    (attached? : Option String) (rest : List (String × Reading κ)) :
    List (Event κ) × List (String × Reading κ) :=
  match form.takesValue, attached? with
  | true, some text => ([.option form.key text], rest)
  | true, none =>
    match rest with
    | (text, .value) :: more => ([.option form.key text], more)
    | _ => ([.unreadable], rest)
  | false, none => ([.option form.key ""], rest)
  | false, some text =>
    match OptionForm.ofLetters? forms name text with
    | some others => ((form :: others).map fun f => .option f.key "", rest)
    | none => ([.unreadable], rest)

theorem length_of_ofOption {forms : List (OptionForm κ)} {form : OptionForm κ} {name : String}
    {attached? : Option String} {rest : List (String × Reading κ)} :
    (ofOption forms form name attached? rest).2.length ≤ rest.length := by
  unfold ofOption
  split
  · simp
  · split <;> simp
  · simp
  · split <;> simp

/-- What the options before the first value say, and the arguments from that value on. -/
def leading (forms : List (OptionForm κ)) (args : List (String × Reading κ)) :
    List (Event κ) × List (String × Reading κ) :=
  match args with
  | (_, .option form name attached?) :: rest =>
    let step := ofOption forms form name attached? rest
    let others := leading forms step.2
    (step.1 ++ others.1, others.2)
  | (_, .unknownOption) :: rest =>
    let others := leading forms rest
    (.unexpected :: others.1, others.2)
  | args => ([], args)
termination_by args.length
decreasing_by
  · exact Nat.lt_succ_of_le length_of_ofOption
  · simp

theorem length_of_leading {forms : List (OptionForm κ)} {args : List (String × Reading κ)} :
    (leading forms args).2.length ≤ args.length := by
  fun_induction leading forms args with
  | case1 _ form name attached? rest step others ih =>
    exact Nat.le_trans ih (Nat.le_succ_of_le length_of_ofOption)
  | case2 _ rest others ih => exact Nat.le_succ_of_le ih
  | case3 args => exact Nat.le_refl _

/-- What arguments say. A separator with nothing behind it has to follow a value, which `afterValue`
tells. -/
def ofArguments (forms : List (OptionForm κ)) (afterValue : Bool)
    (args : List (String × Reading κ)) : List (Event κ) :=
  let front := leading forms args
  front.1 ++
    match _h : front.2 with
    | [] => []
    | (text, .value) :: rest => .value text :: ofArguments forms true rest
    | (_, _) :: rest =>
      (if rest.isEmpty && !(afterValue && front.1.isEmpty) then [.unexpected] else []) ++
        rest.map fun (text, _) => .value text
termination_by args.length
decreasing_by
  have hle : (leading forms args).2.length ≤ args.length := length_of_leading
  have hlt : rest.length < (leading forms args).2.length := by
    rw [show (leading forms args).2 = (text, Reading.value) :: rest from _h]
    simp
  omega

end Event

end TableDocs.CommandLine
