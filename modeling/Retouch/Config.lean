import Retouch.Dialect

/-!
# Configuration

What a session starts from: the dialect, the first source, and whether a sync shows its result in
the preview. In JSON every part may be missing.
-/

namespace Retouch

/-- The lines of the component that is shown before the user types anything. -/
def starterLines : List String := [
  "export default function Component() \x7b",
  "  const [count, setCount] = React.useState(0)",
  "  return (",
  "    <div style=\x7b\x7bfontFamily:'sans-serif', padding: 16\x7d\x7d>",
  "      <h1 style=\x7b\x7bmargin: 0, marginBottom: 12\x7d\x7d>Hello Renderer 👋</h1>",
  "      <p style=\x7b\x7bmargin: 0, marginBottom: 12\x7d\x7d>A basic React component preview with shareable link.</p>",
  "      <button",
  "        onClick=\x7b() => setCount(c => c + 1)\x7d",
  "        style=\x7b\x7b",
  "          padding: '8px 12px',",
  "          borderRadius: 8,",
  "          border: '1px solid #e5e7eb',",
  "          background: '#2563eb',",
  "          color: '#fff',",
  "          cursor: 'pointer'",
  "        \x7d\x7d",
  "      >",
  "        Clicked \x7bcount\x7d times",
  "      </button>",
  "    </div>",
  "  )",
  "\x7d"]

/-- The component that is shown before the user types anything: its lines between line breaks. -/
def starterSource : Text := '\n' :: starterLines.flatMap fun line => line.toList ++ ['\n']

/-- What a session starts from. -/
structure Config where
  dialect : Dialect
  initialSource : Text
  /-- Whether a sync pushes the new source to the preview. -/
  pushOnSync : Bool
deriving DecidableEq

namespace Config

open Json (optional record? orDefault? text? bool?)

/-- What a session starts from if nothing else is said. -/
def standard : Config := ⟨.tsx, starterSource, true⟩

/-- The configuration in a JSON value. -/
def ofJson? (v : Json) : Option Config := do
  match ← record? [optional "dialect", optional "initialSource", optional "pushOnSync"] v with
  | [dialect, source, push] =>
    return {
      dialect := ← orDefault? standard.dialect Dialect.ofJson? dialect
      initialSource := ← orDefault? standard.initialSource text? source
      pushOnSync := ← orDefault? standard.pushOnSync bool? push }
  | _ => none

/-- A configuration as a JSON value. -/
def toJson (c : Config) : Json :=
  .object [("dialect".toList, c.dialect.toJson), ("initialSource".toList, .string c.initialSource),
    ("pushOnSync".toList, .bool c.pushOnSync)]

/-- The configuration with another first source. -/
def withSource (c : Config) (source : Text) : Config := { c with initialSource := source }

end Config

end Retouch
