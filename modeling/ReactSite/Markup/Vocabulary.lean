/-!
# Vocabulary — the elements and attributes of HTML that are written or read in a way of their own
-/
namespace ReactSite
namespace Vocabulary

/-- **The elements that never have content.** -/
def voidTags : List String :=
  ["area", "base", "basefont", "br", "col", "frame", "hr", "img", "input", "isindex", "link", "meta", "param"]

/-- **The attributes that are flags**: being there is their whole meaning. -/
def flagNames : List String :=
  ["checked", "compact", "declare", "defer", "disabled", "ismap", "multiple", "nohref", "noresize", "noshade", "nowrap",
   "readonly", "selected"]

/-- The elements whose `name` was once what an `id` is now. -/
def namedTags : List String := ["a", "p", "div", "img", "map", "applet", "form", "frame", "iframe"]

end Vocabulary
end ReactSite
