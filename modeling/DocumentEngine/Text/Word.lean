import DocumentEngine.Text.CodePoints
import DocumentEngine.Text.Alphabetic

/-!
Characters of names. An alphanumeric character is alphabetic or a number of any kind; a word
character is alphabetic, a mark, a decimal digit, a connector such as `_`, or a joiner. The first
kind is that of Unicode 17, the second that of Unicode 16.
-/

namespace DocumentEngine.Text

/-- Boundaries of the general category Number. -/
def numericBoundaries : List Nat :=
  [0x30, 0x3A, 0xB2, 0xB4, 0xB9, 0xBA, 0xBC, 0xBF, 0x660, 0x66A, 0x6F0, 0x6FA, 0x7C0, 0x7CA,
   0x966, 0x970, 0x9E6, 0x9F0, 0x9F4, 0x9FA, 0xA66, 0xA70, 0xAE6, 0xAF0, 0xB66, 0xB70, 0xB72,
   0xB78, 0xBE6, 0xBF3, 0xC66, 0xC70, 0xC78, 0xC7F, 0xCE6, 0xCF0, 0xD58, 0xD5F, 0xD66, 0xD79,
   0xDE6, 0xDF0, 0xE50, 0xE5A, 0xED0, 0xEDA, 0xF20, 0xF34, 0x1040, 0x104A, 0x1090, 0x109A, 0x1369,
   0x137D, 0x16EE, 0x16F1, 0x17E0, 0x17EA, 0x17F0, 0x17FA, 0x1810, 0x181A, 0x1946, 0x1950, 0x19D0,
   0x19DB, 0x1A80, 0x1A8A, 0x1A90, 0x1A9A, 0x1B50, 0x1B5A, 0x1BB0, 0x1BBA, 0x1C40, 0x1C4A, 0x1C50,
   0x1C5A, 0x2070, 0x2071, 0x2074, 0x207A, 0x2080, 0x208A, 0x2150, 0x2183, 0x2185, 0x218A, 0x2460,
   0x249C, 0x24EA, 0x2500, 0x2776, 0x2794, 0x2CFD, 0x2CFE, 0x3007, 0x3008, 0x3021, 0x302A, 0x3038,
   0x303B, 0x3192, 0x3196, 0x3220, 0x322A, 0x3248, 0x3250, 0x3251, 0x3260, 0x3280, 0x328A, 0x32B1,
   0x32C0, 0xA620, 0xA62A, 0xA6E6, 0xA6F0, 0xA830, 0xA836, 0xA8D0, 0xA8DA, 0xA900, 0xA90A, 0xA9D0,
   0xA9DA, 0xA9F0, 0xA9FA, 0xAA50, 0xAA5A, 0xABF0, 0xABFA, 0xFF10, 0xFF1A, 0x10107, 0x10134,
   0x10140, 0x10179, 0x1018A, 0x1018C, 0x102E1, 0x102FC, 0x10320, 0x10324, 0x10341, 0x10342,
   0x1034A, 0x1034B, 0x103D1, 0x103D6, 0x104A0, 0x104AA, 0x10858, 0x10860, 0x10879, 0x10880,
   0x108A7, 0x108B0, 0x108FB, 0x10900, 0x10916, 0x1091C, 0x109BC, 0x109BE, 0x109C0, 0x109D0,
   0x109D2, 0x10A00, 0x10A40, 0x10A49, 0x10A7D, 0x10A7F, 0x10A9D, 0x10AA0, 0x10AEB, 0x10AF0,
   0x10B58, 0x10B60, 0x10B78, 0x10B80, 0x10BA9, 0x10BB0, 0x10CFA, 0x10D00, 0x10D30, 0x10D3A,
   0x10D40, 0x10D4A, 0x10E60, 0x10E7F, 0x10F1D, 0x10F27, 0x10F51, 0x10F55, 0x10FC5, 0x10FCC,
   0x11052, 0x11070, 0x110F0, 0x110FA, 0x11136, 0x11140, 0x111D0, 0x111DA, 0x111E1, 0x111F5,
   0x112F0, 0x112FA, 0x11450, 0x1145A, 0x114D0, 0x114DA, 0x11650, 0x1165A, 0x116C0, 0x116CA,
   0x116D0, 0x116E4, 0x11730, 0x1173C, 0x118E0, 0x118F3, 0x11950, 0x1195A, 0x11BF0, 0x11BFA,
   0x11C50, 0x11C6D, 0x11D50, 0x11D5A, 0x11DA0, 0x11DAA, 0x11DE0, 0x11DEA, 0x11F50, 0x11F5A,
   0x11FC0, 0x11FD5, 0x12400, 0x1246F, 0x16130, 0x1613A, 0x16A60, 0x16A6A, 0x16AC0, 0x16ACA,
   0x16B50, 0x16B5A, 0x16B5B, 0x16B62, 0x16D70, 0x16D7A, 0x16E80, 0x16E97, 0x16FF4, 0x16FF7,
   0x1CCF0, 0x1CCFA, 0x1D2C0, 0x1D2D4, 0x1D2E0, 0x1D2F4, 0x1D360, 0x1D379, 0x1D7CE, 0x1D800,
   0x1E140, 0x1E14A, 0x1E2F0, 0x1E2FA, 0x1E4F0, 0x1E4FA, 0x1E5F1, 0x1E5FB, 0x1E8C7, 0x1E8D0,
   0x1E950, 0x1E95A, 0x1EC71, 0x1ECAC, 0x1ECAD, 0x1ECB0, 0x1ECB1, 0x1ECB5, 0x1ED01, 0x1ED2E,
   0x1ED2F, 0x1ED3E, 0x1F100, 0x1F10D, 0x1FBF0, 0x1FBFA]

/-- Boundaries of the word characters that are not alphabetic. -/
def wordMarkBoundaries : List Nat :=
  [0x30, 0x3A, 0x5F, 0x60, 0x300, 0x345, 0x346, 0x363, 0x483, 0x48A, 0x591, 0x5B0, 0x658, 0x659,
   0x660, 0x66A, 0x6DF, 0x6E1, 0x6EA, 0x6ED, 0x6F0, 0x6FA, 0x740, 0x74B, 0x7C0, 0x7CA, 0x7EB,
   0x7F4, 0x7FD, 0x7FE, 0x818, 0x81A, 0x82D, 0x82E, 0x859, 0x85C, 0x898, 0x8A0, 0x8CA, 0x8D4,
   0x8E0, 0x8E2, 0x8EA, 0x8F0, 0x93C, 0x93D, 0x94D, 0x94E, 0x951, 0x955, 0x966, 0x970, 0x9BC,
   0x9BD, 0x9CD, 0x9CE, 0x9E6, 0x9F0, 0x9FE, 0x9FF, 0xA3C, 0xA3D, 0xA4D, 0xA4E, 0xA66, 0xA70,
   0xABC, 0xABD, 0xACD, 0xACE, 0xAE6, 0xAF0, 0xAFD, 0xB00, 0xB3C, 0xB3D, 0xB4D, 0xB4E, 0xB55,
   0xB56, 0xB66, 0xB70, 0xBCD, 0xBCE, 0xBE6, 0xBF0, 0xC3C, 0xC3D, 0xC4D, 0xC4E, 0xC66, 0xC70,
   0xCBC, 0xCBD, 0xCCD, 0xCCE, 0xCE6, 0xCF0, 0xD3B, 0xD3D, 0xD4D, 0xD4E, 0xD66, 0xD70, 0xDCA,
   0xDCB, 0xDE6, 0xDF0, 0xE47, 0xE4D, 0xE4E, 0xE4F, 0xE50, 0xE5A, 0xEBA, 0xEBB, 0xEC8, 0xECD,
   0xECE, 0xECF, 0xED0, 0xEDA, 0xF18, 0xF1A, 0xF20, 0xF2A, 0xF35, 0xF36, 0xF37, 0xF38, 0xF39,
   0xF3A, 0xF3E, 0xF40, 0xF84, 0xF85, 0xF86, 0xF88, 0xFC6, 0xFC7, 0x1037, 0x1038, 0x1039, 0x103B,
   0x1040, 0x104A, 0x1090, 0x109A, 0x135D, 0x1360, 0x1714, 0x1716, 0x1734, 0x1735, 0x17B4, 0x17B6,
   0x17C9, 0x17D4, 0x17DD, 0x17DE, 0x17E0, 0x17EA, 0x180B, 0x180E, 0x180F, 0x181A, 0x1939, 0x193C,
   0x1946, 0x1950, 0x19D0, 0x19DA, 0x1A60, 0x1A61, 0x1A75, 0x1A7D, 0x1A7F, 0x1A8A, 0x1A90, 0x1A9A,
   0x1AB0, 0x1ABF, 0x1AC1, 0x1ACC, 0x1ACF, 0x1ADE, 0x1AE0, 0x1AEC, 0x1B34, 0x1B35, 0x1B44, 0x1B45,
   0x1B50, 0x1B5A, 0x1B6B, 0x1B74, 0x1BAA, 0x1BAC, 0x1BB0, 0x1BBA, 0x1BE6, 0x1BE7, 0x1BF2, 0x1BF4,
   0x1C37, 0x1C38, 0x1C40, 0x1C4A, 0x1C50, 0x1C5A, 0x1CD0, 0x1CD3, 0x1CD4, 0x1CE9, 0x1CED, 0x1CEE,
   0x1CF4, 0x1CF5, 0x1CF7, 0x1CFA, 0x1DC0, 0x1DD3, 0x1DF5, 0x1E00, 0x200C, 0x200E, 0x203F, 0x2041,
   0x2054, 0x2055, 0x20D0, 0x20F1, 0x2CEF, 0x2CF2, 0x2D7F, 0x2D80, 0x302A, 0x3030, 0x3099, 0x309B,
   0xA620, 0xA62A, 0xA66F, 0xA673, 0xA67C, 0xA67E, 0xA6F0, 0xA6F2, 0xA806, 0xA807, 0xA82C, 0xA82D,
   0xA8C4, 0xA8C5, 0xA8D0, 0xA8DA, 0xA8E0, 0xA8F2, 0xA900, 0xA90A, 0xA92B, 0xA92E, 0xA953, 0xA954,
   0xA9B3, 0xA9B4, 0xA9C0, 0xA9C1, 0xA9D0, 0xA9DA, 0xA9F0, 0xA9FA, 0xAA50, 0xAA5A, 0xAABF, 0xAAC0,
   0xAAC1, 0xAAC2, 0xAAF6, 0xAAF7, 0xABEC, 0xABEE, 0xABF0, 0xABFA, 0xFE00, 0xFE10, 0xFE20, 0xFE30,
   0xFE33, 0xFE35, 0xFE4D, 0xFE50, 0xFF10, 0xFF1A, 0xFF3F, 0xFF40, 0x101FD, 0x101FE, 0x102E0,
   0x102E1, 0x104A0, 0x104AA, 0x10A38, 0x10A3B, 0x10A3F, 0x10A40, 0x10AE5, 0x10AE7, 0x10D30,
   0x10D3A, 0x10D40, 0x10D4A, 0x10D6A, 0x10D6E, 0x10EFD, 0x10F00, 0x10F46, 0x10F51, 0x10F82,
   0x10F86, 0x11046, 0x11047, 0x11066, 0x11071, 0x1107F, 0x11080, 0x110B9, 0x110BB, 0x110F0,
   0x110FA, 0x11133, 0x11135, 0x11136, 0x11140, 0x11173, 0x11174, 0x111C0, 0x111C1, 0x111C9,
   0x111CD, 0x111D0, 0x111DA, 0x11235, 0x11237, 0x112E9, 0x112EB, 0x112F0, 0x112FA, 0x1133B,
   0x1133D, 0x1134D, 0x1134E, 0x11366, 0x1136D, 0x11370, 0x11375, 0x113CE, 0x113D1, 0x113D2,
   0x113D3, 0x113E1, 0x113E3, 0x11442, 0x11443, 0x11446, 0x11447, 0x11450, 0x1145A, 0x1145E,
   0x1145F, 0x114C2, 0x114C4, 0x114D0, 0x114DA, 0x115BF, 0x115C1, 0x1163F, 0x11640, 0x11650,
   0x1165A, 0x116B6, 0x116B8, 0x116C0, 0x116CA, 0x116D0, 0x116E4, 0x1172B, 0x1172C, 0x11730,
   0x1173A, 0x11839, 0x1183B, 0x118E0, 0x118EA, 0x1193D, 0x1193F, 0x11943, 0x11944, 0x11950,
   0x1195A, 0x119E0, 0x119E1, 0x11A33, 0x11A35, 0x11A47, 0x11A48, 0x11A98, 0x11A9A, 0x11BF0,
   0x11BFA, 0x11C3F, 0x11C40, 0x11C50, 0x11C5A, 0x11D42, 0x11D43, 0x11D44, 0x11D46, 0x11D50,
   0x11D5A, 0x11D97, 0x11D98, 0x11DA0, 0x11DAA, 0x11DE0, 0x11DEA, 0x11F41, 0x11F43, 0x11F50,
   0x11F5B, 0x13440, 0x13441, 0x13447, 0x13456, 0x1612F, 0x1613A, 0x16A60, 0x16A6A, 0x16AC0,
   0x16ACA, 0x16AF0, 0x16AF5, 0x16B30, 0x16B37, 0x16B50, 0x16B5A, 0x16D70, 0x16D7A, 0x16FE4,
   0x16FE5, 0x1BC9D, 0x1BC9E, 0x1CCF0, 0x1CCFA, 0x1CF00, 0x1CF2E, 0x1CF30, 0x1CF47, 0x1D165,
   0x1D16A, 0x1D16D, 0x1D173, 0x1D17B, 0x1D183, 0x1D185, 0x1D18C, 0x1D1AA, 0x1D1AE, 0x1D242,
   0x1D245, 0x1D7CE, 0x1D800, 0x1DA00, 0x1DA37, 0x1DA3B, 0x1DA6D, 0x1DA75, 0x1DA76, 0x1DA84,
   0x1DA85, 0x1DA9B, 0x1DAA0, 0x1DAA1, 0x1DAB0, 0x1E130, 0x1E137, 0x1E140, 0x1E14A, 0x1E2AE,
   0x1E2AF, 0x1E2EC, 0x1E2FA, 0x1E4EC, 0x1E4FA, 0x1E5EE, 0x1E5F0, 0x1E5F1, 0x1E5FB, 0x1E8D0,
   0x1E8D7, 0x1E944, 0x1E947, 0x1E948, 0x1E94B, 0x1E950, 0x1E95A, 0x1FBF0, 0x1FBFA, 0xE0100,
   0xE01F0]

/-- Boundaries of the letters, marks and digits that Unicode 17 added. -/
def recentBoundaries : List Nat :=
  [0x88F, 0x890, 0xC5C, 0xC5D, 0xCDC, 0xCDD, 0x1ACF, 0x1ADE, 0x1AE0, 0x1AEC, 0xA7CE, 0xA7D0,
   0xA7D2, 0xA7D3, 0xA7D4, 0xA7D5, 0xA7F1, 0xA7F2, 0x10940, 0x1095A, 0x10EC5, 0x10EC8, 0x10EFA,
   0x10EFC, 0x11B60, 0x11B68, 0x11DB0, 0x11DDC, 0x11DE0, 0x11DEA, 0x16EA0, 0x16EB9, 0x16EBB,
   0x16ED4, 0x16FF2, 0x16FF7, 0x187F8, 0x18800, 0x18D09, 0x18D1F, 0x18D80, 0x18DF3, 0x1E6C0,
   0x1E6DF, 0x1E6E0, 0x1E6F6, 0x1E6FE, 0x1E700, 0x2B73A, 0x2B740, 0x2CEA2, 0x2CEAE, 0x323B0,
   0x3347A]

/-- A number character: a decimal digit, a letter number such as `Ⅻ`, or another such as `²`. -/
def isNumeric (c : Char) : Bool := within numericBoundaries c.toNat

/-- Alphabetic or numeric. -/
def isAlphanumeric (c : Char) : Bool := isAlphabetic c || isNumeric c

/-- A character that a word in running text may hold. -/
def isWordChar (c : Char) : Bool :=
  (isAlphabetic c || within wordMarkBoundaries c.toNat) && !within recentBoundaries c.toNat

end DocumentEngine.Text
