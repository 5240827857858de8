import LibSurvey.Word

/-!
Annotations: words of a declaration that say how a function is exported or called and belong to
neither its type nor its name.
-/

namespace LibSurvey

/-- Annotations that headers use everywhere. -/
def knownAnnotations : List String :=
  ["SDL_DECLSPEC", "SDLCALL", "SDL_MALLOC", "SDL_FORCE_INLINE", "SDL_NORETURN",
    "SDL_ANALYZER_NORETURN", "SDL_PRINTF_FORMAT_STRING", "SDL_SCANF_FORMAT_STRING",
    "SDL_ALLOC_SIZE", "SDL_ALLOC_SIZE2", "RAYLIB_API", "RLAPI", "RMAPI", "WINAPI", "APIENTRY",
    "GLAPI", "GLAPIENTRY", "static", "inline", "_Noreturn", "noreturn", "restrict", "__restrict",
    "__restrict__", "__inline", "__inline__", "__cdecl", "__stdcall", "__fastcall",
    "__extension__", "__attribute__", "__declspec", "__asm__", "__asm", "__THROW", "__wur",
    "__nonnull", "__const", "__always_inline", "__fortify_function"]

/-- Ends of the all-caps names that vendors give to their annotations. -/
def annotationEnds : List String :=
  ["API", "CALL", "DECLSPEC", "EXPORT", "EXTERN", "ENTRY", "INLINE", "DEPRECATED"]

/-- The annotations a caller adds to the known ones. -/
structure Annotations where
  extra : List String
deriving DecidableEq, Repr

namespace Annotations

def endsWith (word ending : String) : Bool :=
  ending.toList.isSuffixOf word.toList

/-- Whether a name after two underscores is reserved for an annotation; reserved names of types are
not. -/
def isReservedAnnotation (rest : List Char) : Bool :=
  ['_', '_'].isSuffixOf rest || "attr".toList.isPrefixOf rest ||
    "fortified_attr".toList.isPrefixOf rest || isAllCaps (String.ofList rest)

/-- Whether a word is an annotation by its spelling alone. -/
def looksLikeNoise (word : String) : Bool :=
  match word.toList with
  | '_' :: '_' :: rest => isReservedAnnotation rest
  | _ => isAllCaps word && annotationEnds.any (endsWith word)

def isNoise (annotations : Annotations) (word : String) : Bool :=
  knownAnnotations.contains word || annotations.extra.contains word || looksLikeNoise word

end Annotations
end LibSurvey
