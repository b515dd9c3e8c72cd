import ImportOrder.Text

/-!
Characters by name, as far as Latin-1 goes.
-/

namespace ImportOrder.Text

/-- The names of the characters below U+0100 but for the letters of ASCII, which follow a
pattern. -/
def characterNames : List (Nat × List String) :=
  [
   (0x00, ["NULL", "NUL"]), (0x01, ["START OF HEADING", "SOH"]), (0x02, ["START OF TEXT", "STX"]),
   (0x03, ["END OF TEXT", "ETX"]), (0x04, ["END OF TRANSMISSION", "EOT"]),
   (0x05, ["ENQUIRY", "ENQ"]), (0x06, ["ACKNOWLEDGE", "ACK"]), (0x07, ["ALERT", "BEL"]),
   (0x08, ["BACKSPACE", "BS"]),
   (0x09, ["CHARACTER TABULATION", "HORIZONTAL TABULATION", "HT", "TAB"]),
   (0x0a, ["LINE FEED", "NEW LINE", "END OF LINE", "LF", "NL", "EOL"]),
   (0x0b, ["LINE TABULATION", "VERTICAL TABULATION", "VT"]), (0x0c, ["FORM FEED", "FF"]),
   (0x0d, ["CARRIAGE RETURN", "CR"]), (0x0e, ["SHIFT OUT", "LOCKING-SHIFT ONE", "SO"]),
   (0x0f, ["SHIFT IN", "LOCKING-SHIFT ZERO", "SI"]), (0x10, ["DATA LINK ESCAPE", "DLE"]),
   (0x11, ["DEVICE CONTROL ONE", "DC1"]), (0x12, ["DEVICE CONTROL TWO", "DC2"]),
   (0x13, ["DEVICE CONTROL THREE", "DC3"]), (0x14, ["DEVICE CONTROL FOUR", "DC4"]),
   (0x15, ["NEGATIVE ACKNOWLEDGE", "NAK"]), (0x16, ["SYNCHRONOUS IDLE", "SYN"]),
   (0x17, ["END OF TRANSMISSION BLOCK", "ETB"]), (0x18, ["CANCEL", "CAN"]),
   (0x19, ["END OF MEDIUM", "EOM"]), (0x1a, ["SUBSTITUTE", "SUB"]), (0x1b, ["ESCAPE", "ESC"]),
   (0x1c, ["INFORMATION SEPARATOR FOUR", "FILE SEPARATOR", "FS"]),
   (0x1d, ["INFORMATION SEPARATOR THREE", "GROUP SEPARATOR", "GS"]),
   (0x1e, ["INFORMATION SEPARATOR TWO", "RECORD SEPARATOR", "RS"]),
   (0x1f, ["INFORMATION SEPARATOR ONE", "UNIT SEPARATOR", "US"]), (0x20, ["SPACE", "SP"]),
   (0x21, ["EXCLAMATION MARK"]), (0x22, ["QUOTATION MARK"]), (0x23, ["NUMBER SIGN"]),
   (0x24, ["DOLLAR SIGN"]), (0x25, ["PERCENT SIGN"]), (0x26, ["AMPERSAND"]), (0x27, ["APOSTROPHE"]),
   (0x28, ["LEFT PARENTHESIS"]), (0x29, ["RIGHT PARENTHESIS"]), (0x2a, ["ASTERISK"]),
   (0x2b, ["PLUS SIGN"]), (0x2c, ["COMMA"]), (0x2d, ["HYPHEN-MINUS"]), (0x2e, ["FULL STOP"]),
   (0x2f, ["SOLIDUS"]), (0x30, ["DIGIT ZERO"]), (0x31, ["DIGIT ONE"]), (0x32, ["DIGIT TWO"]),
   (0x33, ["DIGIT THREE"]), (0x34, ["DIGIT FOUR"]), (0x35, ["DIGIT FIVE"]), (0x36, ["DIGIT SIX"]),
   (0x37, ["DIGIT SEVEN"]), (0x38, ["DIGIT EIGHT"]), (0x39, ["DIGIT NINE"]), (0x3a, ["COLON"]),
   (0x3b, ["SEMICOLON"]), (0x3c, ["LESS-THAN SIGN"]), (0x3d, ["EQUALS SIGN"]),
   (0x3e, ["GREATER-THAN SIGN"]), (0x3f, ["QUESTION MARK"]), (0x40, ["COMMERCIAL AT"]),
   (0x5b, ["LEFT SQUARE BRACKET"]), (0x5c, ["REVERSE SOLIDUS"]), (0x5d, ["RIGHT SQUARE BRACKET"]),
   (0x5e, ["CIRCUMFLEX ACCENT"]), (0x5f, ["LOW LINE"]), (0x60, ["GRAVE ACCENT"]),
   (0x7b, ["LEFT CURLY BRACKET"]), (0x7c, ["VERTICAL LINE"]), (0x7d, ["RIGHT CURLY BRACKET"]),
   (0x7e, ["TILDE"]), (0x7f, ["DELETE", "DEL"]), (0x80, ["PADDING CHARACTER", "PAD"]),
   (0x81, ["HIGH OCTET PRESET", "HOP"]), (0x82, ["BREAK PERMITTED HERE", "BPH"]),
   (0x83, ["NO BREAK HERE", "NBH"]), (0x84, ["INDEX", "IND"]), (0x85, ["NEXT LINE", "NEL"]),
   (0x86, ["START OF SELECTED AREA", "SSA"]), (0x87, ["END OF SELECTED AREA", "ESA"]),
   (0x88, ["CHARACTER TABULATION SET", "HORIZONTAL TABULATION SET", "HTS"]),
   (0x89, ["CHARACTER TABULATION WITH JUSTIFICATION",
     "HORIZONTAL TABULATION WITH JUSTIFICATION", "HTJ"]),
   (0x8a, ["LINE TABULATION SET", "VERTICAL TABULATION SET", "VTS"]),
   (0x8b, ["PARTIAL LINE FORWARD", "PARTIAL LINE DOWN", "PLD"]),
   (0x8c, ["PARTIAL LINE BACKWARD", "PARTIAL LINE UP", "PLU"]),
   (0x8d, ["REVERSE LINE FEED", "REVERSE INDEX", "RI"]),
   (0x8e, ["SINGLE SHIFT TWO", "SINGLE-SHIFT-2", "SS2"]),
   (0x8f, ["SINGLE SHIFT THREE", "SINGLE-SHIFT-3", "SS3"]),
   (0x90, ["DEVICE CONTROL STRING", "DCS"]), (0x91, ["PRIVATE USE ONE", "PRIVATE USE-1", "PU1"]),
   (0x92, ["PRIVATE USE TWO", "PRIVATE USE-2", "PU2"]), (0x93, ["SET TRANSMIT STATE", "STS"]),
   (0x94, ["CANCEL CHARACTER", "CCH"]), (0x95, ["MESSAGE WAITING", "MW"]),
   (0x96, ["START OF GUARDED AREA", "START OF PROTECTED AREA", "SPA"]),
   (0x97, ["END OF GUARDED AREA", "END OF PROTECTED AREA", "EPA"]),
   (0x98, ["START OF STRING", "SOS"]), (0x99, ["SINGLE GRAPHIC CHARACTER INTRODUCER", "SGC"]),
   (0x9a, ["SINGLE CHARACTER INTRODUCER", "SCI"]), (0x9b, ["CONTROL SEQUENCE INTRODUCER", "CSI"]),
   (0x9c, ["STRING TERMINATOR", "ST"]), (0x9d, ["OPERATING SYSTEM COMMAND", "OSC"]),
   (0x9e, ["PRIVACY MESSAGE", "PM"]), (0x9f, ["APPLICATION PROGRAM COMMAND", "APC"]),
   (0xa0, ["NO-BREAK SPACE", "NBSP"]), (0xa1, ["INVERTED EXCLAMATION MARK"]), (0xa2, ["CENT SIGN"]),
   (0xa3, ["POUND SIGN"]), (0xa4, ["CURRENCY SIGN"]), (0xa5, ["YEN SIGN"]), (0xa6, ["BROKEN BAR"]),
   (0xa7, ["SECTION SIGN"]), (0xa8, ["DIAERESIS"]), (0xa9, ["COPYRIGHT SIGN"]),
   (0xaa, ["FEMININE ORDINAL INDICATOR"]), (0xab, ["LEFT-POINTING DOUBLE ANGLE QUOTATION MARK"]),
   (0xac, ["NOT SIGN"]), (0xad, ["SOFT HYPHEN", "SHY"]), (0xae, ["REGISTERED SIGN"]),
   (0xaf, ["MACRON"]), (0xb0, ["DEGREE SIGN"]), (0xb1, ["PLUS-MINUS SIGN"]),
   (0xb2, ["SUPERSCRIPT TWO"]), (0xb3, ["SUPERSCRIPT THREE"]), (0xb4, ["ACUTE ACCENT"]),
   (0xb5, ["MICRO SIGN"]), (0xb6, ["PILCROW SIGN"]), (0xb7, ["MIDDLE DOT"]), (0xb8, ["CEDILLA"]),
   (0xb9, ["SUPERSCRIPT ONE"]), (0xba, ["MASCULINE ORDINAL INDICATOR"]),
   (0xbb, ["RIGHT-POINTING DOUBLE ANGLE QUOTATION MARK"]), (0xbc, ["VULGAR FRACTION ONE QUARTER"]),
   (0xbd, ["VULGAR FRACTION ONE HALF"]), (0xbe, ["VULGAR FRACTION THREE QUARTERS"]),
   (0xbf, ["INVERTED QUESTION MARK"]), (0xc0, ["LATIN CAPITAL LETTER A WITH GRAVE"]),
   (0xc1, ["LATIN CAPITAL LETTER A WITH ACUTE"]),
   (0xc2, ["LATIN CAPITAL LETTER A WITH CIRCUMFLEX"]),
   (0xc3, ["LATIN CAPITAL LETTER A WITH TILDE"]), (0xc4, ["LATIN CAPITAL LETTER A WITH DIAERESIS"]),
   (0xc5, ["LATIN CAPITAL LETTER A WITH RING ABOVE"]), (0xc6, ["LATIN CAPITAL LETTER AE"]),
   (0xc7, ["LATIN CAPITAL LETTER C WITH CEDILLA"]), (0xc8, ["LATIN CAPITAL LETTER E WITH GRAVE"]),
   (0xc9, ["LATIN CAPITAL LETTER E WITH ACUTE"]),
   (0xca, ["LATIN CAPITAL LETTER E WITH CIRCUMFLEX"]),
   (0xcb, ["LATIN CAPITAL LETTER E WITH DIAERESIS"]), (0xcc, ["LATIN CAPITAL LETTER I WITH GRAVE"]),
   (0xcd, ["LATIN CAPITAL LETTER I WITH ACUTE"]),
   (0xce, ["LATIN CAPITAL LETTER I WITH CIRCUMFLEX"]),
   (0xcf, ["LATIN CAPITAL LETTER I WITH DIAERESIS"]), (0xd0, ["LATIN CAPITAL LETTER ETH"]),
   (0xd1, ["LATIN CAPITAL LETTER N WITH TILDE"]), (0xd2, ["LATIN CAPITAL LETTER O WITH GRAVE"]),
   (0xd3, ["LATIN CAPITAL LETTER O WITH ACUTE"]),
   (0xd4, ["LATIN CAPITAL LETTER O WITH CIRCUMFLEX"]),
   (0xd5, ["LATIN CAPITAL LETTER O WITH TILDE"]), (0xd6, ["LATIN CAPITAL LETTER O WITH DIAERESIS"]),
   (0xd7, ["MULTIPLICATION SIGN"]), (0xd8, ["LATIN CAPITAL LETTER O WITH STROKE"]),
   (0xd9, ["LATIN CAPITAL LETTER U WITH GRAVE"]), (0xda, ["LATIN CAPITAL LETTER U WITH ACUTE"]),
   (0xdb, ["LATIN CAPITAL LETTER U WITH CIRCUMFLEX"]),
   (0xdc, ["LATIN CAPITAL LETTER U WITH DIAERESIS"]), (0xdd, ["LATIN CAPITAL LETTER Y WITH ACUTE"]),
   (0xde, ["LATIN CAPITAL LETTER THORN"]), (0xdf, ["LATIN SMALL LETTER SHARP S"]),
   (0xe0, ["LATIN SMALL LETTER A WITH GRAVE"]), (0xe1, ["LATIN SMALL LETTER A WITH ACUTE"]),
   (0xe2, ["LATIN SMALL LETTER A WITH CIRCUMFLEX"]), (0xe3, ["LATIN SMALL LETTER A WITH TILDE"]),
   (0xe4, ["LATIN SMALL LETTER A WITH DIAERESIS"]),
   (0xe5, ["LATIN SMALL LETTER A WITH RING ABOVE"]), (0xe6, ["LATIN SMALL LETTER AE"]),
   (0xe7, ["LATIN SMALL LETTER C WITH CEDILLA"]), (0xe8, ["LATIN SMALL LETTER E WITH GRAVE"]),
   (0xe9, ["LATIN SMALL LETTER E WITH ACUTE"]), (0xea, ["LATIN SMALL LETTER E WITH CIRCUMFLEX"]),
   (0xeb, ["LATIN SMALL LETTER E WITH DIAERESIS"]), (0xec, ["LATIN SMALL LETTER I WITH GRAVE"]),
   (0xed, ["LATIN SMALL LETTER I WITH ACUTE"]), (0xee, ["LATIN SMALL LETTER I WITH CIRCUMFLEX"]),
   (0xef, ["LATIN SMALL LETTER I WITH DIAERESIS"]), (0xf0, ["LATIN SMALL LETTER ETH"]),
   (0xf1, ["LATIN SMALL LETTER N WITH TILDE"]), (0xf2, ["LATIN SMALL LETTER O WITH GRAVE"]),
   (0xf3, ["LATIN SMALL LETTER O WITH ACUTE"]), (0xf4, ["LATIN SMALL LETTER O WITH CIRCUMFLEX"]),
   (0xf5, ["LATIN SMALL LETTER O WITH TILDE"]), (0xf6, ["LATIN SMALL LETTER O WITH DIAERESIS"]),
   (0xf7, ["DIVISION SIGN"]), (0xf8, ["LATIN SMALL LETTER O WITH STROKE"]),
   (0xf9, ["LATIN SMALL LETTER U WITH GRAVE"]), (0xfa, ["LATIN SMALL LETTER U WITH ACUTE"]),
   (0xfb, ["LATIN SMALL LETTER U WITH CIRCUMFLEX"]),
   (0xfc, ["LATIN SMALL LETTER U WITH DIAERESIS"]), (0xfd, ["LATIN SMALL LETTER Y WITH ACUTE"]),
   (0xfe, ["LATIN SMALL LETTER THORN"]), (0xff, ["LATIN SMALL LETTER Y WITH DIAERESIS"])]

/-- A letter of ASCII by its name. -/
def letterNamed? (name : String) : Option Nat :=
  [("LATIN CAPITAL LETTER ", 0x41), ("LATIN SMALL LETTER ", 0x61)].findSome? fun (start, first) =>
    (List.range 26).find? (fun i => name == start.push (Char.ofNat (0x41 + i))) |>.map (first + ·)

/-- The code of the character with a name. Capital and small letters count as the same. -/
def characterNamed? (name : String) : Option Nat :=
  let name := name.map Char.toUpper
  match letterNamed? name with
  | some code => some code
  | none => (characterNames.find? (·.2.contains name)).map (·.1)

end ImportOrder.Text
