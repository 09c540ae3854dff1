import ChatStory.Json.Number

/-!
Reading documents. The notation is strict: nothing but spacing may surround the
one value, and every list, record, text and number has to be complete. Each reading
function leaves a shorter text, so reading ends.
-/
namespace ChatStory.Json

def isSpace (c : Char) : Bool := c == ' ' || c == '\n' || c == '\r' || c == '\t'

def skip (cs : List Char) : List Char := cs.dropWhile isSpace

theorem length_skip (cs : List Char) : (skip cs).length ≤ cs.length :=
  (List.dropWhile_sublist _).length_le

theorem length_of_skip {cs rest : List Char} {c : Char} (h : skip cs = c :: rest) :
    rest.length < cs.length := by
  have := length_skip cs
  rw [h, List.length_cons] at this
  omega

def hexDigit? (c : Char) : Option Nat :=
  if c.isDigit then some (c.toNat - '0'.toNat)
  else if 'a' ≤ c ∧ c ≤ 'f' then some (c.toNat - 'a'.toNat + 10)
  else if 'A' ≤ c ∧ c ≤ 'F' then some (c.toNat - 'A'.toNat + 10)
  else none

/-- The sixteen-bit unit that four hexadecimal digits spell. -/
def unit? (a b c d : Char) : Option Nat := do
  return ((← hexDigit? a) * 4096 + (← hexDigit? b) * 256 + (← hexDigit? c) * 16 + (← hexDigit? d))

def isHighUnit (n : Nat) : Bool := 0xD800 ≤ n && n < 0xDC00

def isLowUnit (n : Nat) : Bool := 0xDC00 ≤ n && n < 0xE000

/-- The character that a letter after a backslash stands for. -/
def unescape? : Char → Option Char
  | '"' => some '"'
  | '\\' => some '\\'
  | '/' => some '/'
  | 'b' => some '\x08'
  | 'f' => some '\x0c'
  | 'n' => some '\n'
  | 'r' => some '\r'
  | 't' => some '\t'
  | _ => none

/-- The low unit that an escape at the start of a text spells. -/
def escapedLow? : List Char → Option Nat
  | '\\' :: 'u' :: a :: b :: c :: d :: _ => (unit? a b c d).filter isLowUnit
  | _ => none

/-- Reads what follows a backslash. A surrogate without its partner is no character. -/
def escaped? : List Char → Option (Option Char × List Char)
  | 'u' :: a :: b :: c :: d :: rest =>
    match unit? a b c d with
    | none => none
    | some unit =>
      if isHighUnit unit then
        match escapedLow? rest with
        | some low =>
          some (some (Char.ofNat (0x10000 + (unit - 0xD800) * 0x400 + (low - 0xDC00))), rest.drop 6)
        | none => some (none, rest)
      else some (if isLowUnit unit then none else some (Char.ofNat unit), rest)
  | c :: rest => (unescape? c).map fun d => (some d, rest)
  | [] => none

theorem length_escaped {cs rest : List Char} {c : Option Char}
    (h : escaped? cs = some (c, rest)) : rest.length < cs.length := by
  unfold escaped? at h
  split at h
  · split at h
    · simp at h
    · split at h
      · split at h <;> simp_all <;> grind
      · simp_all; grind
  · simp_all; grind
  · simp at h

/-- A text as far as it has been read: its characters, or none of them when an
unpaired surrogate stands somewhere in it, and what follows the closing quote. -/
abbrev Literal := Option (List Char) × List Char

def Literal.cons (c : Option Char) (l : Literal) : Literal :=
  (match c, l.1 with
    | some c, some cs => some (c :: cs)
    | _, _ => none, l.2)

/-- Reads a text up to the closing quote. -/
def literal? : List Char → Option Literal
  | [] => none
  | '"' :: rest => some (some [], rest)
  | '\\' :: rest =>
    match h : escaped? rest with
    | none => none
    | some (c, rest') =>
      have := length_escaped h
      (literal? rest').map (.cons c)
  | c :: rest => if c.toNat < 0x20 then none else (literal? rest).map (.cons (some c))
termination_by cs => cs.length
decreasing_by all_goals simp only [List.length_cons]; omega

theorem length_literal {cs : List Char} {l : Literal} (h : literal? cs = some l) :
    l.2.length < cs.length := by
  fun_induction literal? cs generalizing l with
  | case1 => simp at h
  | case2 => simp only [Option.some.injEq] at h; subst h; simp
  | case3 => simp at h
  | case4 rest c rest' he hl ih =>
    obtain ⟨m, hm, rfl⟩ := Option.map_eq_some_iff.1 h
    have := ih hm
    simp only [Literal.cons, List.length_cons]
    omega
  | case5 => simp at h
  | case6 c rest _ _ _ ih =>
    obtain ⟨m, hm, rfl⟩ := Option.map_eq_some_iff.1 h
    have := ih hm
    simp only [Literal.cons, List.length_cons]
    omega

def textOf : Option (List Char) → Json
  | some cs => .text (String.ofList cs)
  | none => .unreadable

/-- What remains of a text after something was read from its start. -/
abbrev Rest (cs : List Char) := { r : List Char // r.length < cs.length }

def Rest.widen {cs ds : List Char} (r : Rest cs) (h : cs.length ≤ ds.length) : Rest ds :=
  ⟨r.1, Nat.lt_of_lt_of_le r.2 h⟩

/-- What follows a fixed word at the start of a text. -/
def afterWord? (word cs : List Char) : Option (List Char) :=
  if word.isPrefixOf cs then some (cs.drop word.length) else none

def word? (cs : List Char) : Option (Json × List Char) :=
  ((afterWord? "null".toList cs).map (null, ·)).or <|
  ((afterWord? "true".toList cs).map (bool true, ·)).or <|
  (afterWord? "false".toList cs).map (bool false, ·)

theorem length_afterWord {word cs rest : List Char} (hw : 0 < word.length)
    (h : afterWord? word cs = some rest) : rest.length < cs.length := by
  unfold afterWord? at h
  split at h <;> simp_all
  rename_i hp
  have := hp.length_le
  subst h
  simp
  omega

theorem length_word {cs rest : List Char} {j : Json} (h : word? cs = some (j, rest)) :
    rest.length < cs.length := by
  simp only [word?, Option.or_eq_some_iff, Option.map_eq_some_iff, Prod.mk.injEq] at h
  rcases h with ⟨r, h, -, rfl⟩ | ⟨-, ⟨r, h, -, rfl⟩ | ⟨-, r, h, -, rfl⟩⟩ <;>
    exact length_afterWord (by decide) h

/-- Reads a value that is neither list nor record. -/
def scalar? (cs : List Char) : Option (Json × List Char) :=
  match cs with
  | '"' :: rest => (literal? rest).map fun l => (textOf l.1, l.2)
  | _ => (word? cs).or (number? cs)

theorem length_scalar {cs rest : List Char} {j : Json} (h : scalar? cs = some (j, rest)) :
    rest.length < cs.length := by
  unfold scalar? at h
  split at h
  · simp only [Option.map_eq_some_iff, Prod.mk.injEq] at h
    obtain ⟨l, hl, -, rfl⟩ := h
    have := length_literal hl
    simp only [List.length_cons]
    omega
  · simp only [Option.or_eq_some_iff] at h
    rcases h with h | ⟨-, h⟩
    · exact length_word h
    · exact length_number h

/-- Adds a member to the ones read after it; without a readable name there is no record. -/
def consMember (name : Option (List Char)) (j : Json) (members : Option (List (String × Json))) :
    Option (List (String × Json)) := do
  return (String.ofList (← name), j) :: (← members)

/-- Reads the name of a member and the colon after it. The characters are none when the name
has an unpaired surrogate. -/
def name? (cs : List Char) : Option (Option (List Char) × Rest cs) :=
  match h : skip cs with
  | '"' :: rest =>
    match h' : literal? rest with
    | none => none
    | some (name, after) =>
      match h2 : skip after with
      | ':' :: value => some (name, ⟨value, Nat.lt_trans (length_of_skip h2)
          (Nat.lt_trans (length_literal h') (length_of_skip h))⟩)
      | _ => none
  | _ => none

mutual
/-- Reads a value at the start of a text, after spacing. -/
def value? (cs : List Char) : Option (Json × Rest cs) :=
  match h : skip cs with
  | '[' :: rest =>
    have hr := length_of_skip h
    match h' : skip rest with
    | ']' :: rest' => some (.list [], ⟨rest', Nat.lt_trans (length_of_skip h') hr⟩)
    | _ => do
      let (items, r) ← items? rest
      return (.list items, r.widen (Nat.le_of_lt hr))
  | '{' :: rest =>
    have hr := length_of_skip h
    match h' : skip rest with
    | '}' :: rest' => some (.record [], ⟨rest', Nat.lt_trans (length_of_skip h') hr⟩)
    | _ => do
      let (members, r) ← members? rest
      return ((members.map .record).getD .unreadable, r.widen (Nat.le_of_lt hr))
  | cs' =>
    match h' : scalar? cs' with
    | some (j, rest) => some (j, ⟨rest, by
        have := length_skip cs; have := length_scalar h'; rw [h] at *; omega⟩)
    | none => none
termination_by (cs.length, 0)

/-- Reads the items of a list up to its end; there is at least one. -/
def items? (cs : List Char) : Option (List Json × Rest cs) := do
  let (j, ⟨rest, hr⟩) ← value? cs
  match h : skip rest with
  | ']' :: rest' => some ([j], ⟨rest', Nat.lt_trans (length_of_skip h) hr⟩)
  | ',' :: rest' =>
    have hr' := Nat.lt_trans (length_of_skip h) hr
    let (items, r) ← items? rest'
    return (j :: items, r.widen (Nat.le_of_lt hr'))
  | _ => none
termination_by (cs.length, 1)

/-- Reads the members of a record up to its end; there is at least one. -/
def members? (cs : List Char) : Option (Option (List (String × Json)) × Rest cs) := do
  let ⟨name, rest, hn⟩ ← name? cs
  let (j, ⟨rest', hr⟩) ← value? rest
  match h : skip rest' with
  | '}' :: after => some (consMember name j (some []),
      ⟨after, Nat.lt_trans (length_of_skip h) (Nat.lt_trans hr hn)⟩)
  | ',' :: after =>
    have ha := Nat.lt_trans (length_of_skip h) (Nat.lt_trans hr hn)
    let (members, r) ← members? after
    return (consMember name j members, r.widen (Nat.le_of_lt ha))
  | _ => none
termination_by (cs.length, 1)
end

/-- Reads a text that holds one value and nothing else. -/
def parse? (s : String) : Option Json :=
  match value? s.toList with
  | some (j, rest) => if (skip rest.1).isEmpty then some j else none
  | none => none

/-- How many lists and records may stand inside one another. -/
def depthLimit : Nat := 127

/-- A value may be kept as it stands below `outer` lists and records. -/
def keepable (outer : Nat) (j : Json) : Bool := j.readable && outer + j.depth ≤ depthLimit

/-- Reads a text whose every part has a value, nested no deeper than the limit. -/
def parseKept? (s : String) : Option Json := (parse? s).filter (keepable 0)

end ChatStory.Json
