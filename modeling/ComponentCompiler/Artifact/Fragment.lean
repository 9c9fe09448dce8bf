import ComponentCompiler.Disk.Directory
import ComponentCompiler.Disk.File

/-!
The fixed scripts that the artifacts are built around: what comes before and after the components in
the module, and the hook that starts the document.
-/

namespace ComponentCompiler.Fragment

def ofLines (lines : List String) : Text :=
  lines.flatMap fun line => line.toList ++ ['\n']

def substitution : Text :=
  ofLines [
    "  function assertContainer(container) \x7b",
    "    if (!container || !(container instanceof HTMLElement)) \x7b",
    "      throw new Error('A valid container element must be provided.');",
    "    \x7d",
    "  \x7d",
    "",
    "  // Single pass: substituted values are never rescanned.",
    "  function renderTemplate(template, props) \x7b",
    "    return template.replace(/\\\x7b([^\x7d]+)\\\x7d/g, function (match, body) \x7b",
    "      var colon = body.indexOf(':');",
    "      var name = (colon === -1 ? body : body.slice(0, colon)).trim();",
    "      var fallback = colon === -1 ? '' : body.slice(colon + 1).trim();",
    "      // Own props only: inherited members such as `constructor` are absent.",
    "      var value = Object.prototype.hasOwnProperty.call(props, name) ? props[name] : undefined;",
    "      if (value !== undefined && value !== null && String(value) !== '') \x7b",
    "        return String(value);",
    "      \x7d",
    "      return fallback;",
    "    \x7d);",
    "  \x7d"]

def startup : Text :=
  ofLines [
    "  var stylesInjected = false;",
    "",
    "  function injectStyles() \x7b",
    "    if (stylesInjected || !COMPONENT_STYLES) \x7b",
    "      return;",
    "    \x7d",
    "    var styleElement = document.createElement('style');",
    "    styleElement.textContent = COMPONENT_STYLES;",
    "    document.head.appendChild(styleElement);",
    "    stylesInjected = true;",
    "  \x7d",
    "",
    "  function initializeComponents(container, props) \x7b",
    "    assertContainer(container);",
    "    var sharedProps = props || \x7b\x7d;",
    "    injectStyles();",
    "    COMPONENT_ORDER.forEach(function (name) \x7b",
    "      var candidates = container.querySelectorAll('[' + COMPONENT_ATTRIBUTE + ']');",
    "      for (var i = 0; i < candidates.length; i += 1) \x7b",
    "        if (candidates[i].getAttribute(COMPONENT_ATTRIBUTE) === name) \x7b",
    "          ComponentRegistry[name](candidates[i], sharedProps);",
    "        \x7d",
    "      \x7d",
    "    \x7d);",
    "  \x7d",
    "",
    "  global.ComponentRegistry = ComponentRegistry;",
    "  global.initializeComponents = initializeComponents;"]

def boot : Text :=
  ofLines [
    "(function () \x7b",
    "  function boot() \x7b",
    "    var root = document.getElementById(__ROOT_ID__);",
    "    if (root) \x7b",
    "      initializeComponents(root, \x7b\x7d);",
    "    \x7d",
    "  \x7d",
    "",
    "  if (document.readyState === 'loading') \x7b",
    "    document.addEventListener('DOMContentLoaded', boot, \x7b once: true \x7d);",
    "  \x7d else \x7b",
    "    boot();",
    "  \x7d",
    "\x7d)();"]

def rootMark : Text := "__ROOT_ID__".toList

def files : List (String × Text) :=
  [("prelude.js", substitution), ("initialize.js", startup), ("boot.js", boot)]

def directory : Utf16 := .ofString "bundled/runtime"

def place (name : Utf16) : Utf16 :=
  Path.join directory name

def shelve (files : List (String × Text)) : Disk :=
  files.foldl
    (fun disk (name, text) => (disk.writeText (place (.ofString name)) (.ofText text)).1)
    ((Disk.ofHome []).ensureDirectories directory).1

def shelf : Disk :=
  shelve files

def read (name : Utf16) : Except Disk.Error (List UInt8) :=
  shelf.read (place name)

end ComponentCompiler.Fragment
