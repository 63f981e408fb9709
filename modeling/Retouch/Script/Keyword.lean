import Retouch.Text.Basic

/-!
# Keywords

The words that have a meaning of their own somewhere in a script. Those that `isReserved` names are
never identifiers; the others are, wherever they have no meaning.
-/

namespace Retouch.Script

/-- A word with a meaning of its own. -/
inductive Keyword where
  | await | break_ | case | catch_ | class_ | const | continue_ | debugger | default_ | delete_
  | do_ | else_ | enum | export_ | extends_ | false_ | finally_ | for_ | function | if_ | import_
  | in_ | instanceOf | new | null | return_ | super | switch | this | throw | true_ | try_
  | typeOf | var | void | while_ | with_ | yield | let_ | static | implements | interface
  | package | private_ | protected_ | public_ | async | from_ | get | meta_ | of | set_
  | accessor | abstract_ | as_ | asserts | assert | any | boolean | constructor | declare
  | infer_ | intrinsic | is | keyOf | module_ | namespace_ | never | out | readonly | require
  | number | object | satisfies | string | symbol | type | undefined | unique | using | unknown
  | global | bigint | override | source | defer | target
deriving DecidableEq, Repr

namespace Keyword

/-- The letters of a keyword. -/
def text : Keyword → Text
  | .await => ['a', 'w', 'a', 'i', 't']
  | .break_ => ['b', 'r', 'e', 'a', 'k']
  | .case => ['c', 'a', 's', 'e']
  | .catch_ => ['c', 'a', 't', 'c', 'h']
  | .class_ => ['c', 'l', 'a', 's', 's']
  | .const => ['c', 'o', 'n', 's', 't']
  | .continue_ => ['c', 'o', 'n', 't', 'i', 'n', 'u', 'e']
  | .debugger => ['d', 'e', 'b', 'u', 'g', 'g', 'e', 'r']
  | .default_ => ['d', 'e', 'f', 'a', 'u', 'l', 't']
  | .delete_ => ['d', 'e', 'l', 'e', 't', 'e']
  | .do_ => ['d', 'o']
  | .else_ => ['e', 'l', 's', 'e']
  | .enum => ['e', 'n', 'u', 'm']
  | .export_ => ['e', 'x', 'p', 'o', 'r', 't']
  | .extends_ => ['e', 'x', 't', 'e', 'n', 'd', 's']
  | .false_ => ['f', 'a', 'l', 's', 'e']
  | .finally_ => ['f', 'i', 'n', 'a', 'l', 'l', 'y']
  | .for_ => ['f', 'o', 'r']
  | .function => ['f', 'u', 'n', 'c', 't', 'i', 'o', 'n']
  | .if_ => ['i', 'f']
  | .import_ => ['i', 'm', 'p', 'o', 'r', 't']
  | .in_ => ['i', 'n']
  | .instanceOf => ['i', 'n', 's', 't', 'a', 'n', 'c', 'e', 'o', 'f']
  | .new => ['n', 'e', 'w']
  | .null => ['n', 'u', 'l', 'l']
  | .return_ => ['r', 'e', 't', 'u', 'r', 'n']
  | .super => ['s', 'u', 'p', 'e', 'r']
  | .switch => ['s', 'w', 'i', 't', 'c', 'h']
  | .this => ['t', 'h', 'i', 's']
  | .throw => ['t', 'h', 'r', 'o', 'w']
  | .true_ => ['t', 'r', 'u', 'e']
  | .try_ => ['t', 'r', 'y']
  | .typeOf => ['t', 'y', 'p', 'e', 'o', 'f']
  | .var => ['v', 'a', 'r']
  | .void => ['v', 'o', 'i', 'd']
  | .while_ => ['w', 'h', 'i', 'l', 'e']
  | .with_ => ['w', 'i', 't', 'h']
  | .yield => ['y', 'i', 'e', 'l', 'd']
  | .let_ => ['l', 'e', 't']
  | .static => ['s', 't', 'a', 't', 'i', 'c']
  | .implements => ['i', 'm', 'p', 'l', 'e', 'm', 'e', 'n', 't', 's']
  | .interface => ['i', 'n', 't', 'e', 'r', 'f', 'a', 'c', 'e']
  | .package => ['p', 'a', 'c', 'k', 'a', 'g', 'e']
  | .private_ => ['p', 'r', 'i', 'v', 'a', 't', 'e']
  | .protected_ => ['p', 'r', 'o', 't', 'e', 'c', 't', 'e', 'd']
  | .public_ => ['p', 'u', 'b', 'l', 'i', 'c']
  | .async => ['a', 's', 'y', 'n', 'c']
  | .from_ => ['f', 'r', 'o', 'm']
  | .get => ['g', 'e', 't']
  | .meta_ => ['m', 'e', 't', 'a']
  | .of => ['o', 'f']
  | .set_ => ['s', 'e', 't']
  | .accessor => ['a', 'c', 'c', 'e', 's', 's', 'o', 'r']
  | .abstract_ => ['a', 'b', 's', 't', 'r', 'a', 'c', 't']
  | .as_ => ['a', 's']
  | .asserts => ['a', 's', 's', 'e', 'r', 't', 's']
  | .assert => ['a', 's', 's', 'e', 'r', 't']
  | .any => ['a', 'n', 'y']
  | .boolean => ['b', 'o', 'o', 'l', 'e', 'a', 'n']
  | .constructor => ['c', 'o', 'n', 's', 't', 'r', 'u', 'c', 't', 'o', 'r']
  | .declare => ['d', 'e', 'c', 'l', 'a', 'r', 'e']
  | .infer_ => ['i', 'n', 'f', 'e', 'r']
  | .intrinsic => ['i', 'n', 't', 'r', 'i', 'n', 's', 'i', 'c']
  | .is => ['i', 's']
  | .keyOf => ['k', 'e', 'y', 'o', 'f']
  | .module_ => ['m', 'o', 'd', 'u', 'l', 'e']
  | .namespace_ => ['n', 'a', 'm', 'e', 's', 'p', 'a', 'c', 'e']
  | .never => ['n', 'e', 'v', 'e', 'r']
  | .out => ['o', 'u', 't']
  | .readonly => ['r', 'e', 'a', 'd', 'o', 'n', 'l', 'y']
  | .require => ['r', 'e', 'q', 'u', 'i', 'r', 'e']
  | .number => ['n', 'u', 'm', 'b', 'e', 'r']
  | .object => ['o', 'b', 'j', 'e', 'c', 't']
  | .satisfies => ['s', 'a', 't', 'i', 's', 'f', 'i', 'e', 's']
  | .string => ['s', 't', 'r', 'i', 'n', 'g']
  | .symbol => ['s', 'y', 'm', 'b', 'o', 'l']
  | .type => ['t', 'y', 'p', 'e']
  | .undefined => ['u', 'n', 'd', 'e', 'f', 'i', 'n', 'e', 'd']
  | .unique => ['u', 'n', 'i', 'q', 'u', 'e']
  | .using => ['u', 's', 'i', 'n', 'g']
  | .unknown => ['u', 'n', 'k', 'n', 'o', 'w', 'n']
  | .global => ['g', 'l', 'o', 'b', 'a', 'l']
  | .bigint => ['b', 'i', 'g', 'i', 'n', 't']
  | .override => ['o', 'v', 'e', 'r', 'r', 'i', 'd', 'e']
  | .source => ['s', 'o', 'u', 'r', 'c', 'e']
  | .defer => ['d', 'e', 'f', 'e', 'r']
  | .target => ['t', 'a', 'r', 'g', 'e', 't']

/-- The keywords that are never identifiers, except that `await` and `yield` are where they are not
operators. -/
def reserved : List Keyword := [
  .await, .break_, .case, .catch_, .class_, .const, .continue_, .debugger, .default_, .delete_,
  .do_, .else_, .enum, .export_, .extends_, .false_, .finally_, .for_, .function, .if_, .import_,
  .in_, .instanceOf, .new, .null, .return_, .super, .switch, .this, .throw, .true_, .try_,
  .typeOf, .var, .void, .while_, .with_, .yield]

/-- The keywords that are identifiers where they have no meaning. -/
def contextual : List Keyword := [
  .let_, .static, .implements, .interface, .package, .private_, .protected_, .public_, .async,
  .from_, .get, .meta_, .of, .set_, .accessor, .abstract_, .as_, .asserts, .assert, .any,
  .boolean, .constructor, .declare, .infer_, .intrinsic, .is, .keyOf, .module_, .namespace_,
  .never, .out, .readonly, .require, .number, .object, .satisfies, .string, .symbol, .type,
  .undefined, .unique, .using, .unknown, .global, .bigint, .override, .source, .defer, .target]

/-- The keyword with these letters, if there is one. -/
def ofText? (letters : Text) : Option Keyword :=
  (reserved ++ contextual).find? fun k => k.text == letters

/-- Whether a keyword is never an identifier, or one only where it is no operator. -/
def isReserved (k : Keyword) : Bool := reserved.contains k

/-- Whether a keyword can name something declared. -/
def isBinding (k : Keyword) : Bool := !isReserved k || k == .await || k == .yield

/-- Whether a keyword can say something about the declaration, member or parameter behind it. -/
def isModifier (k : Keyword) : Bool :=
  match k with
  | .abstract_ | .accessor | .async | .const | .declare | .default_ | .export_ | .in_ | .out
  | .override | .private_ | .protected_ | .public_ | .readonly | .static => true
  | _ => false

example : ofText? "while".toList = some .while_ := by decide
example : ofText? "whale".toList = none := by decide
example : ∀ k ∈ reserved ++ contextual, ofText? k.text = some k := by decide

end Keyword

end Retouch.Script
