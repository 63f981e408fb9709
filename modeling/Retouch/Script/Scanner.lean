import Retouch.Script.Literal
import Retouch.Script.Numeral

/-!
# Scanning

How the next token is read from the text of a script. What is skipped and read depends on where
the token stands: in code, behind the equals sign of an attribute, or between tags. Some tokens are
read again once the grammar knows what they are: a slash that begins a regular expression, a brace
that ends a substitution, a `>` that is part of an operator.
-/

namespace Retouch.Script

open Text

/-- Where a token is read. -/
inductive Place where
  | code
  /-- Behind the equals sign of an attribute: a string ends only at its quote. -/
  | attribute
  /-- Between tags. -/
  | child
deriving DecidableEq

/-- A token with the text that begins at it and the text behind it. -/
structure Scanned where
  token : Token
  atToken : Text
  behind : Text

namespace Scanned

/-- The cursor at the token. -/
def here (s : Scanned) : Cursor := ⟨s.atToken, s.token.start⟩

/-- The cursor behind the token. -/
def after (s : Scanned) : Cursor := ⟨s.behind, s.token.stop⟩

/-- The token of `kind` between two cursors. -/
def of (kind : TokenKind) (faults : List Diagnostic) (lineEnded escaped : Bool)
    (here after : Cursor) : Scanned :=
  ⟨⟨kind, here.offset, after.offset, lineEnded, escaped, faults⟩, here.rest, after.rest⟩

/-- A token that is malformed up to the end of the text. -/
def broken (cause : Cause) (faults : List Diagnostic) (lineEnded : Bool) (here : Cursor) : Scanned :=
  .of .malformed (faults ++ [⟨here.offset, cause⟩]) lineEnded false here
    ⟨[], here.offset + byteLength here.rest⟩

end Scanned

/-! ## Tokens of code -/

/-- The token at a cursor where no blank or comment stands. -/
def scanToken (place : Place) (here : Cursor) (lineEnded : Bool) : Scanned :=
  let make := fun kind after => Scanned.of kind [] lineEnded false here after
  let check := fun kind sound cause after =>
    Scanned.of kind (if sound then [] else [⟨here.offset, cause⟩]) lineEnded false here after
  let stray := check .malformed false .unexpectedCharacter (here.skip 1)
  match here.rest with
  | [] => make .endOfSource here
  | c :: rest =>
    let next := here.offset + c.utf8Size
    if isIdentifierStart c || c == '\\' then
      let word := readWord 0 true (c :: rest) here.offset
      if word.letters.isEmpty then stray
      else .of (wordKind word.letters) [] lineEnded word.escaped here word.behind
    else if c.isDigit || (c == '.' && (rest.head?.map Char.isDigit).getD false) then
      let numeral := readNumeral here
      if sticksToNumber numeral.behind.rest then
        check .malformed false .invalidNumber numeral.behind
      else check numeral.kind numeral.sound .invalidNumber numeral.behind
    else if c == '"' || c == '\'' then
      if place == .attribute then
        let (value, quote) := (⟨rest, next⟩ : Cursor).run fun d => d != c
        if quote.rest.isEmpty then .broken .unterminatedString [] lineEnded here
        else make (.string value) (quote.skip 1)
      else
        match readQuoted c 0 rest next with
        | some body => check (.string (textOfUnits body.units)) body.sound .invalidEscape body.behind
        | none => .broken .unterminatedString [] lineEnded here
    else if c == '\x60' then
      match readTemplate 0 rest next with
      | some part => make (.template true part.toEnd part.sound) part.behind
      | none => .broken .unterminatedString [] lineEnded here
    else if c == '#' then
      let word := readWord 0 true rest next
      if word.letters.isEmpty then stray else make .privateName word.behind
    else if c == '?' && rest.head? == some '.' && ((rest.drop 1).head?.map Char.isDigit).getD false then
      make (.punct .question) (here.skip 1)
    else
      match Punct.longest? Punct.inCode (c :: rest) with
      | some mark => make (.punct mark) (here.skip mark.text.length)
      | none => stray

/-! ## Pieces between tags -/

/-- What is wrong with the text between tags: signs that would begin or end code. -/
def childFaults : Text → (offset : Nat) → List Diagnostic
  | [], _ => []
  | c :: rest, offset =>
    let faults := childFaults rest (offset + c.utf8Size)
    if c == '>' then ⟨offset, .bareGreater⟩ :: faults
    else if c == '\x7d' then ⟨offset, .bareBrace⟩ :: faults
    else faults

/-- The next piece between tags: a brace or angle that begins something, or the text before it. -/
def scanChild (here : Cursor) : Scanned :=
  match here.rest with
  | [] => .of .endOfSource [] false false here here
  | '<' :: _ => .of (.punct .less) [] false false here (here.skip 1)
  | '\x7b' :: _ => .of (.punct .braceOpen) [] false false here (here.skip 1)
  | _ =>
    let (raw, after) := here.run fun c => !(c == '<' || c == '\x7b')
    .of (.markupText raw) (childFaults raw here.offset) false false here after

/-- The next token behind a cursor. -/
def scan (place : Place) (c : Cursor) : Scanned :=
  if place == .child then scanChild c
  else
    let gap := skipGap .blank c.rest c.offset false
    match gap.openComment with
    | some start =>
      .of .malformed [⟨start, .unterminatedComment⟩] gap.lineEnded false gap.cursor gap.cursor
    | none => scanToken place gap.cursor gap.lineEnded

/-! ## Reading a token again -/

/-- What a token is read again as. -/
inductive Rescan where
  /-- A slash, as the beginning of a regular expression. -/
  | regex
  /-- A closing brace, as the beginning of the rest of a template. -/
  | template
  /-- The sign `>`, as the longest operator it begins. -/
  | greater
  /-- An operator that begins with `<`, as that sign alone. -/
  | less
  /-- A word, with the hyphens and name characters that follow it. -/
  | hyphens
deriving DecidableEq

/-- Read a token again. One that the reading does not concern stays as it is. -/
def rescan (how : Rescan) (s : Scanned) : Scanned :=
  let old := s.token
  let make := fun kind faults after =>
    Scanned.of kind (old.faults ++ faults) old.onNewLine old.escaped s.here after
  match how, s.atToken with
  | .regex, '/' :: body =>
    match readRegex false false body (old.start + 1) with
    | some slash =>
      let (flags, after) := slash.run isIdentifierPart
      make .regex (if flagsSound flags then [] else [⟨old.start, .invalidRegexFlag⟩]) after
    | none => .broken .unterminatedRegex old.faults old.onNewLine s.here
  | .template, '\x7d' :: body =>
    match readTemplate 0 body (old.start + 1) with
    | some part => make (.template false part.toEnd part.sound) [] part.behind
    | none => .broken .unterminatedString old.faults old.onNewLine s.here
  | .greater, '>' :: _ =>
    match Punct.longest? Punct.fromGreater s.atToken with
    | some mark => make (.punct mark) [] (s.here.skip mark.text.length)
    | none => s
  | .less, '<' :: _ => make (.punct .less) [] (s.here.skip 1)
  | .hyphens, _ =>
    match old.kind.word?, s.behind with
    | some word, '-' :: _ =>
      let (tail, after) := s.after.run fun c => c == '-' || isIdentifierPart c
      make (.name (word ++ tail)) [] after
    | _, _ => s
  | _, _ => s

end Retouch.Script
