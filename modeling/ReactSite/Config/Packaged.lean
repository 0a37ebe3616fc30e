import ReactSite.Yaml.Value
/-!
# Packaged configuration — the files that come with the program, and what they say

A user's configuration directory gets a copy of each file.  The rename table stands here as a table; its file is that
table, one line for each name, under three lines of comment.
-/
namespace ReactSite
namespace Packaged

open Yaml (Value)

/-- **The property names of attributes that React spells differently.** -/
def renameTable : List (String × String) :=
  [("accept-charset", "acceptCharset"), ("accesskey", "accessKey"), ("allowfullscreen", "allowFullScreen"),
   ("autocapitalize", "autoCapitalize"), ("autocomplete", "autoComplete"), ("autofocus", "autoFocus"),
   ("autoplay", "autoPlay"), ("cellpadding", "cellPadding"), ("cellspacing", "cellSpacing"), ("charset", "charSet"),
   ("class", "className"), ("colspan", "colSpan"), ("contenteditable", "contentEditable"),
   ("contextmenu", "contextMenu"), ("crossorigin", "crossOrigin"), ("datetime", "dateTime"), ("enctype", "encType"),
   ("enterkeyhint", "enterKeyHint"), ("for", "htmlFor"), ("formaction", "formAction"),
   ("formenctype", "formEncType"), ("formmethod", "formMethod"), ("formnovalidate", "formNoValidate"),
   ("formtarget", "formTarget"), ("frameborder", "frameBorder"), ("hreflang", "hrefLang"),
   ("http-equiv", "httpEquiv"), ("inputmode", "inputMode"), ("itemprop", "itemProp"), ("itemscope", "itemScope"),
   ("itemtype", "itemType"), ("marginheight", "marginHeight"), ("marginwidth", "marginWidth"),
   ("maxlength", "maxLength"), ("minlength", "minLength"), ("nomodule", "noModule"), ("novalidate", "noValidate"),
   ("playsinline", "playsInline"), ("readonly", "readOnly"), ("referrerpolicy", "referrerPolicy"),
   ("rowspan", "rowSpan"), ("spellcheck", "spellCheck"), ("srcdoc", "srcDoc"), ("srclang", "srcLang"),
   ("srcset", "srcSet"), ("tabindex", "tabIndex"), ("usemap", "useMap"), ("xlink:href", "xlinkHref"),
   ("xml:lang", "xmlLang"), ("xml:space", "xmlSpace")]

/-- Lines, each with its line feed. -/
def unlines (lines : List String) : String := String.join (lines.map (· ++ "\n"))

def renameFile : String :=
  unlines
   (["# HTML attribute name -> React prop name.",
     "# Attributes missing from this table pass through unchanged.",
     "# \"style\" and every \"on*\" attribute are always dropped."] ++
    renameTable.map fun p => p.1 ++ ": " ++ p.2)

def renames : List (Value × Value) := renameTable.map fun p => (.text p.1, .text p.2)

def rulesFile : String :=
  unlines
   ["# Naming and layout rules for generated React projects.",
    "entry_document: index.html",
    "entry_component: App",
    "route_module: index.js",
    "module_extension: .js",
    "markup_extensions:",
    "  - .html",
    "  - .htm",
    "output_subdir: src",
    "",
    "# Commands run only when the destination tree is entirely absent.",
    "# \"\x7bdest\x7d\" is replaced with the destination directory.",
    "scaffold_enabled: true",
    "scaffold_commands:",
    "  - [npx, create-react-app, \"\x7bdest\x7d\"]",
    "  - [npm, install, --prefix, \"\x7bdest\x7d\", react-router-dom, react-helmet]"]

def texts (l : List String) : Value := .list (l.map .text)

/-- What the file of the rules says. -/
def rules : List (Value × Value) :=
  [(.text "entry_document", .text "index.html"), (.text "entry_component", .text "App"),
   (.text "route_module", .text "index.js"), (.text "module_extension", .text ".js"),
   (.text "markup_extensions", texts [".html", ".htm"]), (.text "output_subdir", .text "src"),
   (.text "scaffold_enabled", .bool true),
   (.text "scaffold_commands", .list
     [texts ["npx", "create-react-app", "\x7bdest\x7d"],
      texts ["npm", "install", "--prefix", "\x7bdest\x7d", "react-router-dom", "react-helmet"]])]

def loggingFile : String :=
  unlines
   ["version: 1",
    "disable_existing_loggers: false",
    "formatters:",
    "  simple:",
    "    format: \"%(asctime)s - %(name)s - %(levelname)s - %(message)s\"",
    "handlers:",
    "  console:",
    "    class: logging.StreamHandler",
    "    formatter: simple",
    "    level: INFO",
    "  file:",
    "    class: logging.FileHandler",
    "    formatter: simple",
    "    level: DEBUG",
    "    filename: logs/html2react.log",
    "    encoding: utf-8",
    "root:",
    "  level: DEBUG",
    "  handlers: [console, file]",
    "loggers:",
    "  html2react.core.services.watch_service:",
    "    level: INFO"]

def logging : List (Value × Value) :=
  [(.text "version", .int 1), (.text "disable_existing_loggers", .bool false),
   (.text "formatters", .mapping [(.text "simple", .mapping
     [(.text "format", .text "%(asctime)s - %(name)s - %(levelname)s - %(message)s")])]),
   (.text "handlers", .mapping
     [(.text "console", .mapping
       [(.text "class", .text "logging.StreamHandler"), (.text "formatter", .text "simple"),
        (.text "level", .text "INFO")]),
      (.text "file", .mapping
       [(.text "class", .text "logging.FileHandler"), (.text "formatter", .text "simple"),
        (.text "level", .text "DEBUG"), (.text "filename", .text "logs/html2react.log"),
        (.text "encoding", .text "utf-8")])]),
   (.text "root", .mapping [(.text "level", .text "DEBUG"), (.text "handlers", texts ["console", "file"])]),
   (.text "loggers", .mapping
     [(.text "html2react.core.services.watch_service", .mapping [(.text "level", .text "INFO")])])]

end Packaged
end ReactSite
