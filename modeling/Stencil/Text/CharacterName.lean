import Stencil.Text.Basic

/-!
# Names of characters

The code points that the names of characters stand for (Unicode version 14).  The syllables of
Hangul and the unified ideographs have names that are made by a rule, and these have to be written
in capitals.  For other names there are tables, and they may be written in either case.

The tables have the names that a pattern is likely to spell: of the controls, of the letters of the
Latin (up to U+017F), Greek, Cyrillic and Armenian alphabets, of the signs of the first 256 code
points, of general punctuation and of currencies.  Every other name counts as unknown.
-/

namespace Stencil.Text

/-! ## Syllables -/

/-- The consonants that a Hangul syllable can start with. -/
def initialSounds : List String :=
  ["G", "GG", "N", "D", "DD", "R", "M", "B", "BB", "S", "SS", "", "J", "JJ", "C", "K", "T", "P",
   "H"]

/-- The vowels of Hangul syllables. -/
def vowelSounds : List String :=
  ["A", "AE", "YA", "YAE", "EO", "E", "YEO", "YE", "O", "WA", "WAE", "OE", "YO", "U", "WEO", "WE",
   "WI", "YU", "EU", "YI", "I"]

/-- The consonants that a Hangul syllable can end with. -/
def finalSounds : List String :=
  ["", "G", "GG", "GS", "N", "NJ", "NH", "D", "L", "LG", "LM", "LB", "LS", "LT", "LP", "LH", "M",
   "B", "BS", "S", "SS", "NG", "J", "C", "K", "T", "P", "H"]

/-- The longest of some sounds that a text starts with, by its place among them, and the text behind
it. -/
def sound? (sounds : List String) (t : Text) : Option (Nat × Text) :=
  let heard := sounds.zipIdx.filter fun (sound, _) => sound.toList.isPrefixOf t
  let longest := heard.foldl (fun best (sound, place) =>
    if best.any (sound.length ≤ ·.1) then best else some (sound.length, place)) none
  longest.map fun (length, place) => (place, t.drop length)

/-- The syllable that is spelled by its sounds. -/
def syllable? (t : Text) : Option Nat := do
  let (initial, t) ← sound? initialSounds t
  let (vowel, t) ← sound? vowelSounds t
  let (final, t) ← sound? finalSounds t
  if t.isEmpty then some (0xAC00 + (initial * 21 + vowel) * 28 + final) else none

/-! ## Ideographs -/

/-- The first and the last code point of the ranges of unified ideographs. -/
def ideographs : List (Nat × Nat) :=
  [(0x3400, 0x4DBF), (0x4E00, 0x9FFF), (0x20000, 0x2A6DF), (0x2A700, 0x2B738), (0x2B740, 0x2B81D),
   (0x2B820, 0x2CEA1), (0x2CEB0, 0x2EBE0), (0x30000, 0x3134A)]

/-- The ideograph that is given by four or five hexadecimal digits, the letters in capitals. -/
def ideograph? (digits : Text) : Option Nat := do
  let code ← digits.foldlM (fun n c => (16 * n + ·) <$> "0123456789ABCDEF".toList.idxOf? c) 0
  let isKnown := ideographs.any fun (first, last) => decide (first ≤ code ∧ code ≤ last)
  if (digits.length = 4 ∨ digits.length = 5) ∧ isKnown then some code else none

/-! ## Tables -/

/-- Letters of an alphabet, capitals and small ones, in the order of their code points.  `step` is
the distance between neighbours. -/
structure LetterRow where
  alphabet : String
  capital : Nat
  small : Nat
  step : Nat
  letters : List String

/-- The names in some lines, which have a comma between neighbours. -/
def namesIn (lines : List String) : List Text := lines.flatMap fun line => pieces ',' line.toList

/-- The letter of a row with a name. -/
def LetterRow.code? (row : LetterRow) (name : Text) : Option Nat :=
  let letter? (kind : String) (first : Nat) : Option Nat :=
    let start := row.alphabet.toList ++ kind.toList
    if start.isPrefixOf name then
      ((namesIn row.letters).idxOf? (name.drop start.length)).map (first + row.step * ·)
    else none
  letter? " CAPITAL LETTER " row.capital <|> letter? " SMALL LETTER " row.small

/-- Letters that have both cases. -/
def letterRows : List LetterRow :=
  [⟨"LATIN", 0x41, 0x61, 1,
     ["A,B,C,D,E,F,G,H,I,J,K,L,M,N,O,P,Q,R,S,T,U,V,W,X,Y,Z"]⟩,
   ⟨"LATIN", 0xC0, 0xE0, 1,
     ["A WITH GRAVE,A WITH ACUTE,A WITH CIRCUMFLEX,A WITH TILDE,A WITH DIAERESIS",
      "A WITH RING ABOVE,AE,C WITH CEDILLA,E WITH GRAVE,E WITH ACUTE,E WITH CIRCUMFLEX",
      "E WITH DIAERESIS,I WITH GRAVE,I WITH ACUTE,I WITH CIRCUMFLEX,I WITH DIAERESIS,ETH",
      "N WITH TILDE,O WITH GRAVE,O WITH ACUTE,O WITH CIRCUMFLEX,O WITH TILDE,O WITH DIAERESIS"]⟩,
   ⟨"LATIN", 0xD8, 0xF8, 1,
     ["O WITH STROKE,U WITH GRAVE,U WITH ACUTE,U WITH CIRCUMFLEX,U WITH DIAERESIS,Y WITH ACUTE",
      "THORN"]⟩,
   ⟨"LATIN", 0x100, 0x101, 2,
     ["A WITH MACRON,A WITH BREVE,A WITH OGONEK,C WITH ACUTE,C WITH CIRCUMFLEX,C WITH DOT ABOVE",
      "C WITH CARON,D WITH CARON,D WITH STROKE,E WITH MACRON,E WITH BREVE,E WITH DOT ABOVE",
      "E WITH OGONEK,E WITH CARON,G WITH CIRCUMFLEX,G WITH BREVE,G WITH DOT ABOVE",
      "G WITH CEDILLA,H WITH CIRCUMFLEX,H WITH STROKE,I WITH TILDE,I WITH MACRON,I WITH BREVE",
      "I WITH OGONEK"]⟩,
   ⟨"LATIN", 0x134, 0x135, 2, ["J WITH CIRCUMFLEX,K WITH CEDILLA"]⟩,
   ⟨"LATIN", 0x139, 0x13A, 2,
     ["L WITH ACUTE,L WITH CEDILLA,L WITH CARON,L WITH MIDDLE DOT,L WITH STROKE,N WITH ACUTE",
      "N WITH CEDILLA,N WITH CARON"]⟩,
   ⟨"LATIN", 0x14A, 0x14B, 2, ["ENG,O WITH MACRON,O WITH BREVE,O WITH DOUBLE ACUTE"]⟩,
   ⟨"LATIN", 0x154, 0x155, 2,
     ["R WITH ACUTE,R WITH CEDILLA,R WITH CARON,S WITH ACUTE,S WITH CIRCUMFLEX,S WITH CEDILLA",
      "S WITH CARON,T WITH CEDILLA,T WITH CARON,T WITH STROKE,U WITH TILDE,U WITH MACRON",
      "U WITH BREVE,U WITH RING ABOVE,U WITH DOUBLE ACUTE,U WITH OGONEK,W WITH CIRCUMFLEX",
      "Y WITH CIRCUMFLEX"]⟩,
   ⟨"LATIN", 0x179, 0x17A, 2, ["Z WITH ACUTE,Z WITH DOT ABOVE,Z WITH CARON"]⟩,
   ⟨"GREEK", 0x391, 0x3B1, 1,
     ["ALPHA,BETA,GAMMA,DELTA,EPSILON,ZETA,ETA,THETA,IOTA,KAPPA,LAMDA,MU,NU,XI,OMICRON,PI,RHO"]⟩,
   ⟨"GREEK", 0x3A3, 0x3C3, 1,
     ["SIGMA,TAU,UPSILON,PHI,CHI,PSI,OMEGA,IOTA WITH DIALYTIKA,UPSILON WITH DIALYTIKA"]⟩,
   ⟨"CYRILLIC", 0x410, 0x430, 1,
     ["A,BE,VE,GHE,DE,IE,ZHE,ZE,I,SHORT I,KA,EL,EM,EN,O,PE,ER,ES,TE,U,EF,HA,TSE,CHE,SHA,SHCHA",
      "HARD SIGN,YERU,SOFT SIGN,E,YU,YA"]⟩,
   ⟨"CYRILLIC", 0x400, 0x450, 1,
     ["IE WITH GRAVE,IO,DJE,GJE,UKRAINIAN IE,DZE,BYELORUSSIAN-UKRAINIAN I,YI,JE,LJE,NJE,TSHE",
      "KJE,I WITH GRAVE,SHORT U,DZHE"]⟩,
   ⟨"ARMENIAN", 0x531, 0x561, 1,
     ["AYB,BEN,GIM,DA,ECH,ZA,EH,ET,TO,ZHE,INI,LIWN,XEH,CA,KEN,HO,JA,GHAD,CHEH,MEN,YI,NOW,SHA,VO",
      "CHA,PEH,JHEH,RA,SEH,VEW,TIWN,REH,CO,YIWN,PIWR,KEH,OH,FEH"]⟩]

/-- Other characters, in rows of consecutive code points with the first one of the row.  Controls
have several names. -/
def signRows : List (Nat × List String) :=
  [(0x0,
     ["NULL,START OF HEADING,START OF TEXT,END OF TEXT,END OF TRANSMISSION,ENQUIRY,ACKNOWLEDGE",
      "ALERT,BACKSPACE,CHARACTER TABULATION,LINE FEED,LINE TABULATION,FORM FEED,CARRIAGE RETURN",
      "SHIFT OUT,SHIFT IN,DATA LINK ESCAPE,DEVICE CONTROL ONE,DEVICE CONTROL TWO",
      "DEVICE CONTROL THREE,DEVICE CONTROL FOUR,NEGATIVE ACKNOWLEDGE,SYNCHRONOUS IDLE",
      "END OF TRANSMISSION BLOCK,CANCEL,END OF MEDIUM,SUBSTITUTE,ESCAPE",
      "INFORMATION SEPARATOR FOUR,INFORMATION SEPARATOR THREE,INFORMATION SEPARATOR TWO",
      "INFORMATION SEPARATOR ONE"]),
   (0x0,
     ["NUL,SOH,STX,ETX,EOT,ENQ,ACK,BEL,BS,HT,LF,VT,FF,CR,SO,SI,DLE,DC1,DC2,DC3,DC4,NAK,SYN,ETB",
      "CAN,EOM,SUB,ESC,FS,GS,RS,US,SP"]),
   (0x9, ["HORIZONTAL TABULATION,NEW LINE,VERTICAL TABULATION"]),
   (0x9, ["TAB,NL"]),
   (0xA, ["END OF LINE"]),
   (0xA, ["EOL"]),
   (0xE, ["LOCKING-SHIFT ONE,LOCKING-SHIFT ZERO"]),
   (0x1C, ["FILE SEPARATOR,GROUP SEPARATOR,RECORD SEPARATOR,UNIT SEPARATOR"]),
   (0x7F, ["DELETE"]),
   (0x7F, ["DEL"]),
   (0x20,
     ["SPACE,EXCLAMATION MARK,QUOTATION MARK,NUMBER SIGN,DOLLAR SIGN,PERCENT SIGN,AMPERSAND",
      "APOSTROPHE,LEFT PARENTHESIS,RIGHT PARENTHESIS,ASTERISK,PLUS SIGN,COMMA,HYPHEN-MINUS",
      "FULL STOP,SOLIDUS,DIGIT ZERO,DIGIT ONE,DIGIT TWO,DIGIT THREE,DIGIT FOUR,DIGIT FIVE",
      "DIGIT SIX,DIGIT SEVEN,DIGIT EIGHT,DIGIT NINE,COLON,SEMICOLON,LESS-THAN SIGN,EQUALS SIGN",
      "GREATER-THAN SIGN,QUESTION MARK,COMMERCIAL AT"]),
   (0x5B,
     ["LEFT SQUARE BRACKET,REVERSE SOLIDUS,RIGHT SQUARE BRACKET,CIRCUMFLEX ACCENT,LOW LINE",
      "GRAVE ACCENT"]),
   (0x7B, ["LEFT CURLY BRACKET,VERTICAL LINE,RIGHT CURLY BRACKET,TILDE"]),
   (0xA0,
     ["NO-BREAK SPACE,INVERTED EXCLAMATION MARK,CENT SIGN,POUND SIGN,CURRENCY SIGN,YEN SIGN",
      "BROKEN BAR,SECTION SIGN,DIAERESIS,COPYRIGHT SIGN,FEMININE ORDINAL INDICATOR",
      "LEFT-POINTING DOUBLE ANGLE QUOTATION MARK,NOT SIGN,SOFT HYPHEN,REGISTERED SIGN,MACRON",
      "DEGREE SIGN,PLUS-MINUS SIGN,SUPERSCRIPT TWO,SUPERSCRIPT THREE,ACUTE ACCENT,MICRO SIGN",
      "PILCROW SIGN,MIDDLE DOT,CEDILLA,SUPERSCRIPT ONE,MASCULINE ORDINAL INDICATOR",
      "RIGHT-POINTING DOUBLE ANGLE QUOTATION MARK,VULGAR FRACTION ONE QUARTER",
      "VULGAR FRACTION ONE HALF,VULGAR FRACTION THREE QUARTERS,INVERTED QUESTION MARK"]),
   (0xD7, ["MULTIPLICATION SIGN"]),
   (0xDF, ["LATIN SMALL LETTER SHARP S"]),
   (0xF7, ["DIVISION SIGN"]),
   (0xFF, ["LATIN SMALL LETTER Y WITH DIAERESIS"]),
   (0x130,
     ["LATIN CAPITAL LETTER I WITH DOT ABOVE,LATIN SMALL LETTER DOTLESS I",
      "LATIN CAPITAL LIGATURE IJ,LATIN SMALL LIGATURE IJ"]),
   (0x138, ["LATIN SMALL LETTER KRA"]),
   (0x149, ["LATIN SMALL LETTER N PRECEDED BY APOSTROPHE"]),
   (0x152, ["LATIN CAPITAL LIGATURE OE,LATIN SMALL LIGATURE OE"]),
   (0x178, ["LATIN CAPITAL LETTER Y WITH DIAERESIS"]),
   (0x17F, ["LATIN SMALL LETTER LONG S"]),
   (0x386,
     ["GREEK CAPITAL LETTER ALPHA WITH TONOS,GREEK ANO TELEIA",
      "GREEK CAPITAL LETTER EPSILON WITH TONOS,GREEK CAPITAL LETTER ETA WITH TONOS",
      "GREEK CAPITAL LETTER IOTA WITH TONOS"]),
   (0x38C, ["GREEK CAPITAL LETTER OMICRON WITH TONOS"]),
   (0x38E,
     ["GREEK CAPITAL LETTER UPSILON WITH TONOS,GREEK CAPITAL LETTER OMEGA WITH TONOS",
      "GREEK SMALL LETTER IOTA WITH DIALYTIKA AND TONOS"]),
   (0x3AC,
     ["GREEK SMALL LETTER ALPHA WITH TONOS,GREEK SMALL LETTER EPSILON WITH TONOS",
      "GREEK SMALL LETTER ETA WITH TONOS,GREEK SMALL LETTER IOTA WITH TONOS",
      "GREEK SMALL LETTER UPSILON WITH DIALYTIKA AND TONOS"]),
   (0x3C2, ["GREEK SMALL LETTER FINAL SIGMA"]),
   (0x3CC,
     ["GREEK SMALL LETTER OMICRON WITH TONOS,GREEK SMALL LETTER UPSILON WITH TONOS",
      "GREEK SMALL LETTER OMEGA WITH TONOS"]),
   (0x2000,
     ["EN QUAD,EM QUAD,EN SPACE,EM SPACE,THREE-PER-EM SPACE,FOUR-PER-EM SPACE,SIX-PER-EM SPACE",
      "FIGURE SPACE,PUNCTUATION SPACE,THIN SPACE,HAIR SPACE,ZERO WIDTH SPACE",
      "ZERO WIDTH NON-JOINER,ZERO WIDTH JOINER,LEFT-TO-RIGHT MARK,RIGHT-TO-LEFT MARK,HYPHEN",
      "NON-BREAKING HYPHEN,FIGURE DASH,EN DASH,EM DASH,HORIZONTAL BAR,DOUBLE VERTICAL LINE",
      "DOUBLE LOW LINE,LEFT SINGLE QUOTATION MARK,RIGHT SINGLE QUOTATION MARK",
      "SINGLE LOW-9 QUOTATION MARK,SINGLE HIGH-REVERSED-9 QUOTATION MARK",
      "LEFT DOUBLE QUOTATION MARK,RIGHT DOUBLE QUOTATION MARK,DOUBLE LOW-9 QUOTATION MARK",
      "DOUBLE HIGH-REVERSED-9 QUOTATION MARK,DAGGER,DOUBLE DAGGER,BULLET,TRIANGULAR BULLET",
      "ONE DOT LEADER,TWO DOT LEADER,HORIZONTAL ELLIPSIS,HYPHENATION POINT,LINE SEPARATOR",
      "PARAGRAPH SEPARATOR,LEFT-TO-RIGHT EMBEDDING,RIGHT-TO-LEFT EMBEDDING",
      "POP DIRECTIONAL FORMATTING,LEFT-TO-RIGHT OVERRIDE,RIGHT-TO-LEFT OVERRIDE",
      "NARROW NO-BREAK SPACE,PER MILLE SIGN,PER TEN THOUSAND SIGN,PRIME,DOUBLE PRIME",
      "TRIPLE PRIME,REVERSED PRIME,REVERSED DOUBLE PRIME,REVERSED TRIPLE PRIME,CARET",
      "SINGLE LEFT-POINTING ANGLE QUOTATION MARK,SINGLE RIGHT-POINTING ANGLE QUOTATION MARK",
      "REFERENCE MARK,DOUBLE EXCLAMATION MARK,INTERROBANG,OVERLINE,UNDERTIE,CHARACTER TIE",
      "CARET INSERTION POINT,ASTERISM,HYPHEN BULLET,FRACTION SLASH",
      "LEFT SQUARE BRACKET WITH QUILL,RIGHT SQUARE BRACKET WITH QUILL,DOUBLE QUESTION MARK",
      "QUESTION EXCLAMATION MARK,EXCLAMATION QUESTION MARK,TIRONIAN SIGN ET",
      "REVERSED PILCROW SIGN,BLACK LEFTWARDS BULLET,BLACK RIGHTWARDS BULLET,LOW ASTERISK",
      "REVERSED SEMICOLON,CLOSE UP,TWO ASTERISKS ALIGNED VERTICALLY,COMMERCIAL MINUS SIGN",
      "SWUNG DASH,INVERTED UNDERTIE,FLOWER PUNCTUATION MARK,THREE DOT PUNCTUATION",
      "QUADRUPLE PRIME,FOUR DOT PUNCTUATION,FIVE DOT PUNCTUATION,TWO DOT PUNCTUATION",
      "FOUR DOT MARK,DOTTED CROSS,TRICOLON,VERTICAL FOUR DOTS,MEDIUM MATHEMATICAL SPACE",
      "WORD JOINER,FUNCTION APPLICATION,INVISIBLE TIMES,INVISIBLE SEPARATOR,INVISIBLE PLUS"]),
   (0x2066,
     ["LEFT-TO-RIGHT ISOLATE,RIGHT-TO-LEFT ISOLATE,FIRST STRONG ISOLATE,POP DIRECTIONAL ISOLATE",
      "INHIBIT SYMMETRIC SWAPPING,ACTIVATE SYMMETRIC SWAPPING,INHIBIT ARABIC FORM SHAPING",
      "ACTIVATE ARABIC FORM SHAPING,NATIONAL DIGIT SHAPES,NOMINAL DIGIT SHAPES"]),
   (0x20A0,
     ["EURO-CURRENCY SIGN,COLON SIGN,CRUZEIRO SIGN,FRENCH FRANC SIGN,LIRA SIGN,MILL SIGN",
      "NAIRA SIGN,PESETA SIGN,RUPEE SIGN,WON SIGN,NEW SHEQEL SIGN,DONG SIGN,EURO SIGN,KIP SIGN",
      "TUGRIK SIGN,DRACHMA SIGN,GERMAN PENNY SIGN,PESO SIGN,GUARANI SIGN,AUSTRAL SIGN",
      "HRYVNIA SIGN,CEDI SIGN,LIVRE TOURNOIS SIGN,SPESMILO SIGN,TENGE SIGN,INDIAN RUPEE SIGN",
      "TURKISH LIRA SIGN,NORDIC MARK SIGN,MANAT SIGN,RUBLE SIGN,LARI SIGN,BITCOIN SIGN,SOM SIGN"])]

/-! ## Names -/

/-- The code point of the character with a name. -/
def codeOfName? (name : Text) : Option Nat :=
  let syllable := "HANGUL SYLLABLE ".toList
  let ideograph := "CJK UNIFIED IDEOGRAPH-".toList
  if syllable.isPrefixOf name then syllable? (name.drop syllable.length)
  else if ideograph.isPrefixOf name then ideograph? (name.drop ideograph.length)
  else
    let name := name.map Char.toUpper
    letterRows.findSome? (·.code? name) <|>
      signRows.findSome? fun (first, names) => ((namesIn names).idxOf? name).map (first + ·)

end Stencil.Text
