import CallAtlas.Symbol.Part

/-!
# Codes of symbols

What the letters of a mangled symbol stand for: builtin types, operators, names of the standard
library, and the things that are made for a type or a function.
-/

namespace CallAtlas.Symbol.Code

/-- The builtin type of one letter. -/
def builtin? : Char → Option Builtin
  | 'a' => some ⟨"signed char", .typed⟩
  | 'b' => some ⟨"bool", .boolean⟩
  | 'c' => some ⟨"char", .typed⟩
  | 'd' => some ⟨"double", .floating⟩
  | 'e' => some ⟨"long double", .floating⟩
  | 'f' => some ⟨"float", .floating⟩
  | 'g' => some ⟨"__float128", .floating⟩
  | 'h' => some ⟨"unsigned char", .typed⟩
  | 'i' => some ⟨"int", .number ""⟩
  | 'j' => some ⟨"unsigned int", .number "u"⟩
  | 'l' => some ⟨"long", .number "l"⟩
  | 'm' => some ⟨"unsigned long", .number "ul"⟩
  | 'n' => some ⟨"__int128", .typed⟩
  | 'o' => some ⟨"unsigned __int128", .typed⟩
  | 's' => some ⟨"short", .typed⟩
  | 't' => some ⟨"unsigned short", .typed⟩
  | 'v' => some ⟨"void", .typed⟩
  | 'w' => some ⟨"wchar_t", .typed⟩
  | 'x' => some ⟨"long long", .number "ll"⟩
  | 'y' => some ⟨"unsigned long long", .number "ull"⟩
  | 'z' => some ⟨"...", .typed⟩
  | _ => none

/-- The type of a null pointer. -/
def nullPointer : Builtin := ⟨"decltype(nullptr)", .typed⟩

/-- The type that the letter behind a `D` stands for, where it stands for a whole type. -/
def extended? : Char → Option Part
  | 'a' => some (.text "auto")
  | 'c' => some (.text "decltype(auto)")
  | 'd' => some (.builtin ⟨"decimal64", .typed⟩)
  | 'e' => some (.builtin ⟨"decimal128", .typed⟩)
  | 'f' => some (.builtin ⟨"decimal32", .typed⟩)
  | 'h' => some (.builtin ⟨"half", .floating⟩)
  | 'i' => some (.builtin ⟨"char32_t", .typed⟩)
  | 'n' => some (.builtin nullPointer)
  | 's' => some (.builtin ⟨"char16_t", .typed⟩)
  | 'u' => some (.builtin ⟨"char8_t", .typed⟩)
  | _ => none

/-- The operators by their codes. -/
def operators : List (String × String) :=
  [("aN", "&="), ("aS", "="), ("aa", "&&"), ("ad", "&"), ("an", "&"), ("at", "alignof "),
    ("aw", "co_await "), ("az", "alignof "), ("cc", "const_cast"), ("cl", "()"), ("cm", ","),
    ("co", "~"), ("dV", "/="), ("dX", "[...]="), ("da", "delete[] "), ("dc", "dynamic_cast"),
    ("de", "*"), ("di", "="), ("dl", "delete "), ("ds", ".*"), ("dt", "."), ("dv", "/"),
    ("dx", "]="), ("eO", "^="), ("eo", "^"), ("eq", "=="), ("fL", "..."), ("fR", "..."),
    ("fl", "..."), ("fr", "..."), ("ge", ">="), ("gs", "::"), ("gt", ">"), ("ix", "[]"),
    ("lS", "<<="), ("le", "<="), ("ls", "<<"), ("lt", "<"), ("mI", "-="), ("mL", "*="),
    ("mi", "-"), ("ml", "*"), ("mm", "--"), ("na", "new[]"), ("ne", "!="), ("ng", "-"),
    ("nt", "!"), ("nw", "new"), ("nx", "noexcept"), ("oR", "|="), ("oo", "||"), ("or", "|"),
    ("pL", "+="), ("pl", "+"), ("pm", "->*"), ("pp", "++"), ("ps", "+"), ("pt", "->"),
    ("qu", "?"), ("rM", "%="), ("rS", ">>="), ("rc", "reinterpret_cast"), ("rm", "%"),
    ("rs", ">>"), ("sP", "sizeof..."), ("sZ", "sizeof..."), ("sc", "static_cast"), ("ss", "<=>"),
    ("st", "sizeof "), ("sz", "sizeof "), ("tr", "throw"), ("tw", "throw ")]

/-- The operator of two letters. -/
def operator? (first second : Char) : Option String :=
  operators.lookup (String.ofList [first, second])

/-- A name of the standard library with a code of its own. -/
structure Abbreviation where
  short : String
  /-- What it is short for, written where its constructors and destructors are named. -/
  full : String
  /-- What its constructors are called. -/
  last : Option String

/-- The name that the letter behind an `S` stands for. -/
def abbreviation? : Char → Option Abbreviation
  | 't' => some ⟨"std", "std", none⟩
  | 'a' => some ⟨"std::allocator", "std::allocator", some "allocator"⟩
  | 'b' => some ⟨"std::basic_string", "std::basic_string", some "basic_string"⟩
  | 's' => some ⟨"std::string",
      "std::basic_string<char, std::char_traits<char>, std::allocator<char> >",
      some "basic_string"⟩
  | 'i' => some ⟨"std::istream", "std::basic_istream<char, std::char_traits<char> >",
      some "basic_istream"⟩
  | 'o' => some ⟨"std::ostream", "std::basic_ostream<char, std::char_traits<char> >",
      some "basic_ostream"⟩
  | 'd' => some ⟨"std::iostream", "std::basic_iostream<char, std::char_traits<char> >",
      some "basic_iostream"⟩
  | _ => none

/-- What the letter behind a `T` says of the type that follows. -/
def typeObject? : Char → Option String
  | 'V' => some "vtable for "
  | 'T' => some "VTT for "
  | 'I' => some "typeinfo for "
  | 'S' => some "typeinfo name for "
  | 'F' => some "typeinfo fn for "
  | 'J' => some "java Class for "
  | _ => none

end CallAtlas.Symbol.Code
