import Retouch.Json.Record
import Retouch.Text.Replace

/-!
# The sandbox page

The page that shows the preview: a template with places for the addresses of the scripts it loads
and for the element that the component is mounted in. What is put into a place is escaped, so that
it ends neither the attribute nor the script around it.
-/

namespace Retouch

open Text

/-- What the page loads, and where it mounts the component. -/
structure PageOptions where
  reactSource : Text
  reactDomSource : Text
  /-- The compiler that runs in the page. -/
  babelSource : Text
  mountId : Text
deriving DecidableEq

namespace PageOptions

open Json (optional record? orDefault? text?)

/-- The options of a page for which none are given. -/
def standard : PageOptions :=
  { reactSource := "https://unpkg.com/react@18/umd/react.development.js".toList
    reactDomSource := "https://unpkg.com/react-dom@18/umd/react-dom.development.js".toList
    babelSource := "https://unpkg.com/@babel/standalone/babel.min.js".toList
    mountId := "root".toList }

/-- The parts of the options. -/
def parts : List Json.Part :=
  [optional "reactSrc", optional "reactDomSrc", optional "babelSrc", optional "mountId"]

/-- The options in a JSON value. -/
def ofJson? (v : Json) : Option PageOptions := do
  match ← record? parts v with
  | [react, reactDom, babel, mount] =>
    return {
      reactSource := ← orDefault? standard.reactSource text? react
      reactDomSource := ← orDefault? standard.reactDomSource text? reactDom
      babelSource := ← orDefault? standard.babelSource text? babel
      mountId := ← orDefault? standard.mountId text? mount }
  | _ => none

/-- Options as a JSON value. -/
def toJson (o : PageOptions) : Json :=
  .object [("reactSrc".toList, .string o.reactSource),
    ("reactDomSrc".toList, .string o.reactDomSource),
    ("babelSrc".toList, .string o.babelSource), ("mountId".toList, .string o.mountId)]

end PageOptions

/-! ## Escapes -/

/-- A text as the value of an attribute in double quotes. -/
def escapeAttribute (value : Text) : Text :=
  replaceAll ['>'] "&gt;".toList (replaceAll ['<'] "&lt;".toList
    (replaceAll ['"'] "&quot;".toList (replaceAll ['&'] "&amp;".toList value)))

/-- A text as a string literal that does not end the script around it. -/
def scriptString (value : Text) : Text :=
  replaceAll ['<', '/'] ['<', '\\', '/'] (Json.writeString value)

/-! ## The template -/

/-- The lines of the template. -/
def pageLines : List String := [
  "<!DOCTYPE html>",
  "<html>",
  "  <head>",
  "    <meta charset=\"UTF-8\" />",
  "    <script src=\"__REACT_SRC__\"></script>",
  "    <script src=\"__REACT_DOM_SRC__\"></script>",
  "    <script src=\"__BABEL_SRC__\"></script>",
  "    <style>",
  "      [data-loupe-editable] \x7b outline: none; cursor: text; \x7d",
  "      [data-loupe-editable]:hover \x7b box-shadow: 0 0 0 1px #60a5fa; \x7d",
  "      .loupe-error \x7b color: #dc2626; white-space: pre-wrap; font: 13px monospace; \x7d",
  "    </style>",
  "  </head>",
  "  <body>",
  "    <div id=\"__MOUNT_ID__\"></div>",
  "    <script>",
  "      (function () \x7b",
  "        var mountId = __MOUNT_ID_JSON__;",
  "        var mount = document.getElementById(mountId);",
  "        var root = null;",
  "        var revision = null;",
  "        var observer = null;",
  "",
  "        function post(message) \x7b",
  "          window.parent.postMessage(message, \"*\");",
  "        \x7d",
  "",
  "        function unwatch() \x7b",
  "          if (observer) observer.disconnect();",
  "          observer = null;",
  "        \x7d",
  "",
  "        // The error view is not part of the component, so it is never tagged.",
  "        function fail(phase, err) \x7b",
  "          var message = err && err.message ? err.message : String(err);",
  "          unwatch();",
  "          if (root) \x7b",
  "            try \x7b",
  "              root.unmount();",
  "            \x7d catch (ignored) \x7b\x7d",
  "            root = null;",
  "          \x7d",
  "          mount.innerHTML = \"\";",
  "          var pre = document.createElement(\"pre\");",
  "          pre.className = \"loupe-error\";",
  "          pre.textContent = phase + \" error: \" + message;",
  "          mount.appendChild(pre);",
  "          post(\x7b type: \"ERROR\", phase: phase, message: message, revision: revision \x7d);",
  "        \x7d",
  "",
  "        // Pre-order over every element below the mount root, ranked per tag.",
  "        function instrument() \x7b",
  "          var seen = \x7b\x7d;",
  "          var elements = mount.querySelectorAll(\"*\");",
  "          for (var i = 0; i < elements.length; i++) \x7b",
  "            var el = elements[i];",
  "            var tag = el.tagName.toLowerCase();",
  "            var index = seen[tag] || 0;",
  "            seen[tag] = index + 1;",
  "            el.setAttribute(\"data-loupe-tag\", tag);",
  "            el.setAttribute(\"data-loupe-index\", String(index));",
  "            if (el.children.length === 0) \x7b",
  "              el.setAttribute(\"contenteditable\", \"true\");",
  "              el.setAttribute(\"data-loupe-editable\", \"\");",
  "            \x7d else \x7b",
  "              el.removeAttribute(\"contenteditable\");",
  "              el.removeAttribute(\"data-loupe-editable\");",
  "            \x7d",
  "          \x7d",
  "        \x7d",
  "",
  "        function insideEditable(node) \x7b",
  "          var el = node.nodeType === 1 ? node : node.parentElement;",
  "          return !!(el && el.closest && el.closest(\"[data-loupe-editable]\"));",
  "        \x7d",
  "",
  "        // Re-tag after component re-renders; typing inside a leaf never",
  "        // changes the population.",
  "        function watch() \x7b",
  "          unwatch();",
  "          observer = new MutationObserver(function (records) \x7b",
  "            for (var i = 0; i < records.length; i++) \x7b",
  "              var record = records[i];",
  "              if (record.type === \"childList\" && !insideEditable(record.target)) \x7b",
  "                observer.disconnect();",
  "                instrument();",
  "                watch();",
  "                return;",
  "              \x7d",
  "            \x7d",
  "          \x7d);",
  "          observer.observe(mount, \x7b childList: true, subtree: true \x7d);",
  "        \x7d",
  "",
  "        function compile(source) \x7b",
  "          var output = Babel.transform(source, \x7b",
  "            filename: \"component.tsx\",",
  "            presets: [\"env\", \"react\", \"typescript\"],",
  "          \x7d).code;",
  "          var module = \x7b exports: \x7b\x7d \x7d;",
  "          var factory = new Function(\"module\", \"exports\", \"React\", output + \"\\nreturn module.exports;\");",
  "          var exported = factory(module, module.exports, React);",
  "          return exported[\"default\"] || exported;",
  "        \x7d",
  "",
  "        function render(frame) \x7b",
  "          revision = frame.revision;",
  "          var Component;",
  "          try \x7b",
  "            Component = compile(frame.source);",
  "          \x7d catch (err) \x7b",
  "            fail(\"compile\", err);",
  "            return;",
  "          \x7d",
  "          if (typeof Component !== \"function\") \x7b",
  "            fail(\"compile\", new Error(\"No valid default export\"));",
  "            return;",
  "          \x7d",
  "          try \x7b",
  "            if (!root) root = ReactDOM.createRoot(mount);",
  "            ReactDOM.flushSync(function () \x7b",
  "              root.render(React.createElement(Component));",
  "            \x7d);",
  "          \x7d catch (err) \x7b",
  "            fail(\"runtime\", err);",
  "            return;",
  "          \x7d",
  "          instrument();",
  "          watch();",
  "          post(\x7b type: \"RENDERED\", revision: revision \x7d);",
  "        \x7d",
  "",
  "        mount.addEventListener(\"beforeinput\", function (event) \x7b",
  "          var type = event.inputType;",
  "          if (",
  "            (type === \"insertParagraph\" || type === \"insertLineBreak\" || type === \"insertFromPaste\") &&",
  "            insideEditable(event.target)",
  "          ) \x7b",
  "            event.preventDefault();",
  "            if (type === \"insertFromPaste\" && event.dataTransfer) \x7b",
  "              document.execCommand(\"insertText\", false, event.dataTransfer.getData(\"text/plain\"));",
  "            \x7d",
  "          \x7d",
  "        \x7d);",
  "",
  "        mount.addEventListener(\"input\", function (event) \x7b",
  "          var el = event.target;",
  "          if (!el || !el.hasAttribute || !el.hasAttribute(\"data-loupe-editable\")) return;",
  "          post(\x7b",
  "            type: \"TEXT_EDIT\",",
  "            tag: el.getAttribute(\"data-loupe-tag\"),",
  "            index: Number(el.getAttribute(\"data-loupe-index\")),",
  "            text: el.textContent,",
  "          \x7d);",
  "        \x7d);",
  "",
  "        window.addEventListener(\"error\", function (event) \x7b",
  "          fail(\"runtime\", event.error || event.message);",
  "        \x7d);",
  "",
  "        window.addEventListener(\"message\", function (event) \x7b",
  "          var data = event.data;",
  "          if (typeof data === \"string\") \x7b",
  "            try \x7b",
  "              data = JSON.parse(data);",
  "            \x7d catch (err) \x7b",
  "              return;",
  "            \x7d",
  "          \x7d",
  "          if (data && data.type === \"PUSH\") render(data);",
  "        \x7d);",
  "      \x7d)();",
  "    </script>",
  "  </body>",
  "</html>"]

/-- The template: its lines, each with a line break. -/
def pageTemplate : Text := pageLines.flatMap fun line => line.toList ++ ['\n']

/-- The places of the template with what is put into them, in the order in which they are filled. -/
def PageOptions.places (o : PageOptions) : List (Text × Text) :=
  [("__REACT_SRC__".toList, escapeAttribute o.reactSource),
    ("__REACT_DOM_SRC__".toList, escapeAttribute o.reactDomSource),
    ("__BABEL_SRC__".toList, escapeAttribute o.babelSource),
    ("__MOUNT_ID_JSON__".toList, scriptString o.mountId),
    ("__MOUNT_ID__".toList, escapeAttribute o.mountId)]

/-- A template with its places filled one after the other. -/
def fillPlaces (template : Text) (places : List (Text × Text)) : Text :=
  places.foldl (fun page place => replaceAll place.1 place.2 page) template

/-- The page for some options. -/
def PageOptions.page (o : PageOptions) : Text := fillPlaces pageTemplate o.places

end Retouch
