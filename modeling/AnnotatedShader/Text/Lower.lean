import AnnotatedShader.Text.Cased

set_option autoImplicit false

/-!
# Lower case

The lower-case form of a character (Unicode 14), from a table of runs.  A run has a first and a last
code point, a step between its members and the distance from each to its lower-case form.

One letter has two lower-case forms: a sigma that ends a word is written in its final form.
-/

namespace AnnotatedShader.Text

/-- Code points with one and the same distance to their lower-case forms. -/
structure LowerRun where
  first : Nat
  last : Nat
  step : Nat
  shift : Int
  deriving DecidableEq, Repr, Inhabited

/-- Whether the run gives the lower-case form of a code point. -/
def LowerRun.covers (run : LowerRun) (code : Nat) : Bool :=
  run.first ≤ code && code ≤ run.last && (code - run.first) % run.step == 0

/-- The runs beyond ASCII. -/
def lowerRuns : List LowerRun := [
  ⟨0xC0, 0xD6, 1, 32⟩, ⟨0xD8, 0xDE, 1, 32⟩, ⟨0x100, 0x100, 1, 1⟩, ⟨0x102, 0x102, 1, 1⟩,
  ⟨0x104, 0x104, 1, 1⟩, ⟨0x106, 0x106, 1, 1⟩, ⟨0x108, 0x108, 1, 1⟩, ⟨0x10A, 0x10A, 1, 1⟩,
  ⟨0x10C, 0x10C, 1, 1⟩, ⟨0x10E, 0x10E, 1, 1⟩, ⟨0x110, 0x110, 1, 1⟩, ⟨0x112, 0x112, 1, 1⟩,
  ⟨0x114, 0x114, 1, 1⟩, ⟨0x116, 0x116, 1, 1⟩, ⟨0x118, 0x118, 1, 1⟩, ⟨0x11A, 0x11A, 1, 1⟩,
  ⟨0x11C, 0x11C, 1, 1⟩, ⟨0x11E, 0x11E, 1, 1⟩, ⟨0x120, 0x120, 1, 1⟩, ⟨0x122, 0x122, 1, 1⟩,
  ⟨0x124, 0x124, 1, 1⟩, ⟨0x126, 0x126, 1, 1⟩, ⟨0x128, 0x128, 1, 1⟩, ⟨0x12A, 0x12A, 1, 1⟩,
  ⟨0x12C, 0x12C, 1, 1⟩, ⟨0x12E, 0x12E, 1, 1⟩, ⟨0x132, 0x132, 1, 1⟩, ⟨0x134, 0x134, 1, 1⟩,
  ⟨0x136, 0x136, 1, 1⟩, ⟨0x139, 0x139, 1, 1⟩, ⟨0x13B, 0x13B, 1, 1⟩, ⟨0x13D, 0x13D, 1, 1⟩,
  ⟨0x13F, 0x13F, 1, 1⟩, ⟨0x141, 0x141, 1, 1⟩, ⟨0x143, 0x143, 1, 1⟩, ⟨0x145, 0x145, 1, 1⟩,
  ⟨0x147, 0x147, 1, 1⟩, ⟨0x14A, 0x14A, 1, 1⟩, ⟨0x14C, 0x14C, 1, 1⟩, ⟨0x14E, 0x14E, 1, 1⟩,
  ⟨0x150, 0x150, 1, 1⟩, ⟨0x152, 0x152, 1, 1⟩, ⟨0x154, 0x154, 1, 1⟩, ⟨0x156, 0x156, 1, 1⟩,
  ⟨0x158, 0x158, 1, 1⟩, ⟨0x15A, 0x15A, 1, 1⟩, ⟨0x15C, 0x15C, 1, 1⟩, ⟨0x15E, 0x15E, 1, 1⟩,
  ⟨0x160, 0x160, 1, 1⟩, ⟨0x162, 0x162, 1, 1⟩, ⟨0x164, 0x164, 1, 1⟩, ⟨0x166, 0x166, 1, 1⟩,
  ⟨0x168, 0x168, 1, 1⟩, ⟨0x16A, 0x16A, 1, 1⟩, ⟨0x16C, 0x16C, 1, 1⟩, ⟨0x16E, 0x16E, 1, 1⟩,
  ⟨0x170, 0x170, 1, 1⟩, ⟨0x172, 0x172, 1, 1⟩, ⟨0x174, 0x174, 1, 1⟩, ⟨0x176, 0x176, 1, 1⟩,
  ⟨0x178, 0x178, 1, -121⟩, ⟨0x179, 0x179, 1, 1⟩, ⟨0x17B, 0x17B, 1, 1⟩, ⟨0x17D, 0x17D, 1, 1⟩,
  ⟨0x181, 0x181, 1, 210⟩, ⟨0x182, 0x182, 1, 1⟩, ⟨0x184, 0x184, 1, 1⟩, ⟨0x186, 0x186, 1, 206⟩,
  ⟨0x187, 0x187, 1, 1⟩, ⟨0x189, 0x18A, 1, 205⟩, ⟨0x18B, 0x18B, 1, 1⟩, ⟨0x18E, 0x18E, 1, 79⟩,
  ⟨0x18F, 0x18F, 1, 202⟩, ⟨0x190, 0x190, 1, 203⟩, ⟨0x191, 0x191, 1, 1⟩, ⟨0x193, 0x193, 1, 205⟩,
  ⟨0x194, 0x194, 1, 207⟩, ⟨0x196, 0x196, 1, 211⟩, ⟨0x197, 0x197, 1, 209⟩, ⟨0x198, 0x198, 1, 1⟩,
  ⟨0x19C, 0x19C, 1, 211⟩, ⟨0x19D, 0x19D, 1, 213⟩, ⟨0x19F, 0x19F, 1, 214⟩, ⟨0x1A0, 0x1A0, 1, 1⟩,
  ⟨0x1A2, 0x1A2, 1, 1⟩, ⟨0x1A4, 0x1A4, 1, 1⟩, ⟨0x1A6, 0x1A6, 1, 218⟩, ⟨0x1A7, 0x1A7, 1, 1⟩,
  ⟨0x1A9, 0x1A9, 1, 218⟩, ⟨0x1AC, 0x1AC, 1, 1⟩, ⟨0x1AE, 0x1AE, 1, 218⟩, ⟨0x1AF, 0x1AF, 1, 1⟩,
  ⟨0x1B1, 0x1B2, 1, 217⟩, ⟨0x1B3, 0x1B3, 1, 1⟩, ⟨0x1B5, 0x1B5, 1, 1⟩, ⟨0x1B7, 0x1B7, 1, 219⟩,
  ⟨0x1B8, 0x1B8, 1, 1⟩, ⟨0x1BC, 0x1BC, 1, 1⟩, ⟨0x1C4, 0x1C4, 1, 2⟩, ⟨0x1C5, 0x1C5, 1, 1⟩,
  ⟨0x1C7, 0x1C7, 1, 2⟩, ⟨0x1C8, 0x1C8, 1, 1⟩, ⟨0x1CA, 0x1CA, 1, 2⟩, ⟨0x1CB, 0x1CB, 1, 1⟩,
  ⟨0x1CD, 0x1CD, 1, 1⟩, ⟨0x1CF, 0x1CF, 1, 1⟩, ⟨0x1D1, 0x1D1, 1, 1⟩, ⟨0x1D3, 0x1D3, 1, 1⟩,
  ⟨0x1D5, 0x1D5, 1, 1⟩, ⟨0x1D7, 0x1D7, 1, 1⟩, ⟨0x1D9, 0x1D9, 1, 1⟩, ⟨0x1DB, 0x1DB, 1, 1⟩,
  ⟨0x1DE, 0x1DE, 1, 1⟩, ⟨0x1E0, 0x1E0, 1, 1⟩, ⟨0x1E2, 0x1E2, 1, 1⟩, ⟨0x1E4, 0x1E4, 1, 1⟩,
  ⟨0x1E6, 0x1E6, 1, 1⟩, ⟨0x1E8, 0x1E8, 1, 1⟩, ⟨0x1EA, 0x1EA, 1, 1⟩, ⟨0x1EC, 0x1EC, 1, 1⟩,
  ⟨0x1EE, 0x1EE, 1, 1⟩, ⟨0x1F1, 0x1F1, 1, 2⟩, ⟨0x1F2, 0x1F2, 1, 1⟩, ⟨0x1F4, 0x1F4, 1, 1⟩,
  ⟨0x1F6, 0x1F6, 1, -97⟩, ⟨0x1F7, 0x1F7, 1, -56⟩, ⟨0x1F8, 0x1F8, 1, 1⟩, ⟨0x1FA, 0x1FA, 1, 1⟩,
  ⟨0x1FC, 0x1FC, 1, 1⟩, ⟨0x1FE, 0x1FE, 1, 1⟩, ⟨0x200, 0x200, 1, 1⟩, ⟨0x202, 0x202, 1, 1⟩,
  ⟨0x204, 0x204, 1, 1⟩, ⟨0x206, 0x206, 1, 1⟩, ⟨0x208, 0x208, 1, 1⟩, ⟨0x20A, 0x20A, 1, 1⟩,
  ⟨0x20C, 0x20C, 1, 1⟩, ⟨0x20E, 0x20E, 1, 1⟩, ⟨0x210, 0x210, 1, 1⟩, ⟨0x212, 0x212, 1, 1⟩,
  ⟨0x214, 0x214, 1, 1⟩, ⟨0x216, 0x216, 1, 1⟩, ⟨0x218, 0x218, 1, 1⟩, ⟨0x21A, 0x21A, 1, 1⟩,
  ⟨0x21C, 0x21C, 1, 1⟩, ⟨0x21E, 0x21E, 1, 1⟩, ⟨0x220, 0x220, 1, -130⟩, ⟨0x222, 0x222, 1, 1⟩,
  ⟨0x224, 0x224, 1, 1⟩, ⟨0x226, 0x226, 1, 1⟩, ⟨0x228, 0x228, 1, 1⟩, ⟨0x22A, 0x22A, 1, 1⟩,
  ⟨0x22C, 0x22C, 1, 1⟩, ⟨0x22E, 0x22E, 1, 1⟩, ⟨0x230, 0x230, 1, 1⟩, ⟨0x232, 0x232, 1, 1⟩,
  ⟨0x23A, 0x23A, 1, 10795⟩, ⟨0x23B, 0x23B, 1, 1⟩, ⟨0x23D, 0x23D, 1, -163⟩,
  ⟨0x23E, 0x23E, 1, 10792⟩, ⟨0x241, 0x241, 1, 1⟩, ⟨0x243, 0x243, 1, -195⟩, ⟨0x244, 0x244, 1, 69⟩,
  ⟨0x245, 0x245, 1, 71⟩, ⟨0x246, 0x246, 1, 1⟩, ⟨0x248, 0x248, 1, 1⟩, ⟨0x24A, 0x24A, 1, 1⟩,
  ⟨0x24C, 0x24C, 1, 1⟩, ⟨0x24E, 0x24E, 1, 1⟩, ⟨0x370, 0x370, 1, 1⟩, ⟨0x372, 0x372, 1, 1⟩,
  ⟨0x376, 0x376, 1, 1⟩, ⟨0x37F, 0x37F, 1, 116⟩, ⟨0x386, 0x386, 1, 38⟩, ⟨0x388, 0x38A, 1, 37⟩,
  ⟨0x38C, 0x38C, 1, 64⟩, ⟨0x38E, 0x38F, 1, 63⟩, ⟨0x391, 0x3A1, 1, 32⟩, ⟨0x3A3, 0x3AB, 1, 32⟩,
  ⟨0x3CF, 0x3CF, 1, 8⟩, ⟨0x3D8, 0x3D8, 1, 1⟩, ⟨0x3DA, 0x3DA, 1, 1⟩, ⟨0x3DC, 0x3DC, 1, 1⟩,
  ⟨0x3DE, 0x3DE, 1, 1⟩, ⟨0x3E0, 0x3E0, 1, 1⟩, ⟨0x3E2, 0x3E2, 1, 1⟩, ⟨0x3E4, 0x3E4, 1, 1⟩,
  ⟨0x3E6, 0x3E6, 1, 1⟩, ⟨0x3E8, 0x3E8, 1, 1⟩, ⟨0x3EA, 0x3EA, 1, 1⟩, ⟨0x3EC, 0x3EC, 1, 1⟩,
  ⟨0x3EE, 0x3EE, 1, 1⟩, ⟨0x3F4, 0x3F4, 1, -60⟩, ⟨0x3F7, 0x3F7, 1, 1⟩, ⟨0x3F9, 0x3F9, 1, -7⟩,
  ⟨0x3FA, 0x3FA, 1, 1⟩, ⟨0x3FD, 0x3FF, 1, -130⟩, ⟨0x400, 0x40F, 1, 80⟩, ⟨0x410, 0x42F, 1, 32⟩,
  ⟨0x460, 0x460, 1, 1⟩, ⟨0x462, 0x462, 1, 1⟩, ⟨0x464, 0x464, 1, 1⟩, ⟨0x466, 0x466, 1, 1⟩,
  ⟨0x468, 0x468, 1, 1⟩, ⟨0x46A, 0x46A, 1, 1⟩, ⟨0x46C, 0x46C, 1, 1⟩, ⟨0x46E, 0x46E, 1, 1⟩,
  ⟨0x470, 0x470, 1, 1⟩, ⟨0x472, 0x472, 1, 1⟩, ⟨0x474, 0x474, 1, 1⟩, ⟨0x476, 0x476, 1, 1⟩,
  ⟨0x478, 0x478, 1, 1⟩, ⟨0x47A, 0x47A, 1, 1⟩, ⟨0x47C, 0x47C, 1, 1⟩, ⟨0x47E, 0x47E, 1, 1⟩,
  ⟨0x480, 0x480, 1, 1⟩, ⟨0x48A, 0x48A, 1, 1⟩, ⟨0x48C, 0x48C, 1, 1⟩, ⟨0x48E, 0x48E, 1, 1⟩,
  ⟨0x490, 0x490, 1, 1⟩, ⟨0x492, 0x492, 1, 1⟩, ⟨0x494, 0x494, 1, 1⟩, ⟨0x496, 0x496, 1, 1⟩,
  ⟨0x498, 0x498, 1, 1⟩, ⟨0x49A, 0x49A, 1, 1⟩, ⟨0x49C, 0x49C, 1, 1⟩, ⟨0x49E, 0x49E, 1, 1⟩,
  ⟨0x4A0, 0x4A0, 1, 1⟩, ⟨0x4A2, 0x4A2, 1, 1⟩, ⟨0x4A4, 0x4A4, 1, 1⟩, ⟨0x4A6, 0x4A6, 1, 1⟩,
  ⟨0x4A8, 0x4A8, 1, 1⟩, ⟨0x4AA, 0x4AA, 1, 1⟩, ⟨0x4AC, 0x4AC, 1, 1⟩, ⟨0x4AE, 0x4AE, 1, 1⟩,
  ⟨0x4B0, 0x4B0, 1, 1⟩, ⟨0x4B2, 0x4B2, 1, 1⟩, ⟨0x4B4, 0x4B4, 1, 1⟩, ⟨0x4B6, 0x4B6, 1, 1⟩,
  ⟨0x4B8, 0x4B8, 1, 1⟩, ⟨0x4BA, 0x4BA, 1, 1⟩, ⟨0x4BC, 0x4BC, 1, 1⟩, ⟨0x4BE, 0x4BE, 1, 1⟩,
  ⟨0x4C0, 0x4C0, 1, 15⟩, ⟨0x4C1, 0x4C1, 1, 1⟩, ⟨0x4C3, 0x4C3, 1, 1⟩, ⟨0x4C5, 0x4C5, 1, 1⟩,
  ⟨0x4C7, 0x4C7, 1, 1⟩, ⟨0x4C9, 0x4C9, 1, 1⟩, ⟨0x4CB, 0x4CB, 1, 1⟩, ⟨0x4CD, 0x4CD, 1, 1⟩,
  ⟨0x4D0, 0x4D0, 1, 1⟩, ⟨0x4D2, 0x4D2, 1, 1⟩, ⟨0x4D4, 0x4D4, 1, 1⟩, ⟨0x4D6, 0x4D6, 1, 1⟩,
  ⟨0x4D8, 0x4D8, 1, 1⟩, ⟨0x4DA, 0x4DA, 1, 1⟩, ⟨0x4DC, 0x4DC, 1, 1⟩, ⟨0x4DE, 0x4DE, 1, 1⟩,
  ⟨0x4E0, 0x4E0, 1, 1⟩, ⟨0x4E2, 0x4E2, 1, 1⟩, ⟨0x4E4, 0x4E4, 1, 1⟩, ⟨0x4E6, 0x4E6, 1, 1⟩,
  ⟨0x4E8, 0x4E8, 1, 1⟩, ⟨0x4EA, 0x4EA, 1, 1⟩, ⟨0x4EC, 0x4EC, 1, 1⟩, ⟨0x4EE, 0x4EE, 1, 1⟩,
  ⟨0x4F0, 0x4F0, 1, 1⟩, ⟨0x4F2, 0x4F2, 1, 1⟩, ⟨0x4F4, 0x4F4, 1, 1⟩, ⟨0x4F6, 0x4F6, 1, 1⟩,
  ⟨0x4F8, 0x4F8, 1, 1⟩, ⟨0x4FA, 0x4FA, 1, 1⟩, ⟨0x4FC, 0x4FC, 1, 1⟩, ⟨0x4FE, 0x4FE, 1, 1⟩,
  ⟨0x500, 0x500, 1, 1⟩, ⟨0x502, 0x502, 1, 1⟩, ⟨0x504, 0x504, 1, 1⟩, ⟨0x506, 0x506, 1, 1⟩,
  ⟨0x508, 0x508, 1, 1⟩, ⟨0x50A, 0x50A, 1, 1⟩, ⟨0x50C, 0x50C, 1, 1⟩, ⟨0x50E, 0x50E, 1, 1⟩,
  ⟨0x510, 0x510, 1, 1⟩, ⟨0x512, 0x512, 1, 1⟩, ⟨0x514, 0x514, 1, 1⟩, ⟨0x516, 0x516, 1, 1⟩,
  ⟨0x518, 0x518, 1, 1⟩, ⟨0x51A, 0x51A, 1, 1⟩, ⟨0x51C, 0x51C, 1, 1⟩, ⟨0x51E, 0x51E, 1, 1⟩,
  ⟨0x520, 0x520, 1, 1⟩, ⟨0x522, 0x522, 1, 1⟩, ⟨0x524, 0x524, 1, 1⟩, ⟨0x526, 0x526, 1, 1⟩,
  ⟨0x528, 0x528, 1, 1⟩, ⟨0x52A, 0x52A, 1, 1⟩, ⟨0x52C, 0x52C, 1, 1⟩, ⟨0x52E, 0x52E, 1, 1⟩,
  ⟨0x531, 0x556, 1, 48⟩, ⟨0x10A0, 0x10C5, 1, 7264⟩, ⟨0x10C7, 0x10C7, 1, 7264⟩,
  ⟨0x10CD, 0x10CD, 1, 7264⟩, ⟨0x13A0, 0x13EF, 1, 38864⟩, ⟨0x13F0, 0x13F5, 1, 8⟩,
  ⟨0x1C90, 0x1CBA, 1, -3008⟩, ⟨0x1CBD, 0x1CBF, 1, -3008⟩, ⟨0x1E00, 0x1E00, 1, 1⟩,
  ⟨0x1E02, 0x1E02, 1, 1⟩, ⟨0x1E04, 0x1E04, 1, 1⟩, ⟨0x1E06, 0x1E06, 1, 1⟩, ⟨0x1E08, 0x1E08, 1, 1⟩,
  ⟨0x1E0A, 0x1E0A, 1, 1⟩, ⟨0x1E0C, 0x1E0C, 1, 1⟩, ⟨0x1E0E, 0x1E0E, 1, 1⟩, ⟨0x1E10, 0x1E10, 1, 1⟩,
  ⟨0x1E12, 0x1E12, 1, 1⟩, ⟨0x1E14, 0x1E14, 1, 1⟩, ⟨0x1E16, 0x1E16, 1, 1⟩, ⟨0x1E18, 0x1E18, 1, 1⟩,
  ⟨0x1E1A, 0x1E1A, 1, 1⟩, ⟨0x1E1C, 0x1E1C, 1, 1⟩, ⟨0x1E1E, 0x1E1E, 1, 1⟩, ⟨0x1E20, 0x1E20, 1, 1⟩,
  ⟨0x1E22, 0x1E22, 1, 1⟩, ⟨0x1E24, 0x1E24, 1, 1⟩, ⟨0x1E26, 0x1E26, 1, 1⟩, ⟨0x1E28, 0x1E28, 1, 1⟩,
  ⟨0x1E2A, 0x1E2A, 1, 1⟩, ⟨0x1E2C, 0x1E2C, 1, 1⟩, ⟨0x1E2E, 0x1E2E, 1, 1⟩, ⟨0x1E30, 0x1E30, 1, 1⟩,
  ⟨0x1E32, 0x1E32, 1, 1⟩, ⟨0x1E34, 0x1E34, 1, 1⟩, ⟨0x1E36, 0x1E36, 1, 1⟩, ⟨0x1E38, 0x1E38, 1, 1⟩,
  ⟨0x1E3A, 0x1E3A, 1, 1⟩, ⟨0x1E3C, 0x1E3C, 1, 1⟩, ⟨0x1E3E, 0x1E3E, 1, 1⟩, ⟨0x1E40, 0x1E40, 1, 1⟩,
  ⟨0x1E42, 0x1E42, 1, 1⟩, ⟨0x1E44, 0x1E44, 1, 1⟩, ⟨0x1E46, 0x1E46, 1, 1⟩, ⟨0x1E48, 0x1E48, 1, 1⟩,
  ⟨0x1E4A, 0x1E4A, 1, 1⟩, ⟨0x1E4C, 0x1E4C, 1, 1⟩, ⟨0x1E4E, 0x1E4E, 1, 1⟩, ⟨0x1E50, 0x1E50, 1, 1⟩,
  ⟨0x1E52, 0x1E52, 1, 1⟩, ⟨0x1E54, 0x1E54, 1, 1⟩, ⟨0x1E56, 0x1E56, 1, 1⟩, ⟨0x1E58, 0x1E58, 1, 1⟩,
  ⟨0x1E5A, 0x1E5A, 1, 1⟩, ⟨0x1E5C, 0x1E5C, 1, 1⟩, ⟨0x1E5E, 0x1E5E, 1, 1⟩, ⟨0x1E60, 0x1E60, 1, 1⟩,
  ⟨0x1E62, 0x1E62, 1, 1⟩, ⟨0x1E64, 0x1E64, 1, 1⟩, ⟨0x1E66, 0x1E66, 1, 1⟩, ⟨0x1E68, 0x1E68, 1, 1⟩,
  ⟨0x1E6A, 0x1E6A, 1, 1⟩, ⟨0x1E6C, 0x1E6C, 1, 1⟩, ⟨0x1E6E, 0x1E6E, 1, 1⟩, ⟨0x1E70, 0x1E70, 1, 1⟩,
  ⟨0x1E72, 0x1E72, 1, 1⟩, ⟨0x1E74, 0x1E74, 1, 1⟩, ⟨0x1E76, 0x1E76, 1, 1⟩, ⟨0x1E78, 0x1E78, 1, 1⟩,
  ⟨0x1E7A, 0x1E7A, 1, 1⟩, ⟨0x1E7C, 0x1E7C, 1, 1⟩, ⟨0x1E7E, 0x1E7E, 1, 1⟩, ⟨0x1E80, 0x1E80, 1, 1⟩,
  ⟨0x1E82, 0x1E82, 1, 1⟩, ⟨0x1E84, 0x1E84, 1, 1⟩, ⟨0x1E86, 0x1E86, 1, 1⟩, ⟨0x1E88, 0x1E88, 1, 1⟩,
  ⟨0x1E8A, 0x1E8A, 1, 1⟩, ⟨0x1E8C, 0x1E8C, 1, 1⟩, ⟨0x1E8E, 0x1E8E, 1, 1⟩, ⟨0x1E90, 0x1E90, 1, 1⟩,
  ⟨0x1E92, 0x1E92, 1, 1⟩, ⟨0x1E94, 0x1E94, 1, 1⟩, ⟨0x1E9E, 0x1E9E, 1, -7615⟩,
  ⟨0x1EA0, 0x1EA0, 1, 1⟩, ⟨0x1EA2, 0x1EA2, 1, 1⟩, ⟨0x1EA4, 0x1EA4, 1, 1⟩, ⟨0x1EA6, 0x1EA6, 1, 1⟩,
  ⟨0x1EA8, 0x1EA8, 1, 1⟩, ⟨0x1EAA, 0x1EAA, 1, 1⟩, ⟨0x1EAC, 0x1EAC, 1, 1⟩, ⟨0x1EAE, 0x1EAE, 1, 1⟩,
  ⟨0x1EB0, 0x1EB0, 1, 1⟩, ⟨0x1EB2, 0x1EB2, 1, 1⟩, ⟨0x1EB4, 0x1EB4, 1, 1⟩, ⟨0x1EB6, 0x1EB6, 1, 1⟩,
  ⟨0x1EB8, 0x1EB8, 1, 1⟩, ⟨0x1EBA, 0x1EBA, 1, 1⟩, ⟨0x1EBC, 0x1EBC, 1, 1⟩, ⟨0x1EBE, 0x1EBE, 1, 1⟩,
  ⟨0x1EC0, 0x1EC0, 1, 1⟩, ⟨0x1EC2, 0x1EC2, 1, 1⟩, ⟨0x1EC4, 0x1EC4, 1, 1⟩, ⟨0x1EC6, 0x1EC6, 1, 1⟩,
  ⟨0x1EC8, 0x1EC8, 1, 1⟩, ⟨0x1ECA, 0x1ECA, 1, 1⟩, ⟨0x1ECC, 0x1ECC, 1, 1⟩, ⟨0x1ECE, 0x1ECE, 1, 1⟩,
  ⟨0x1ED0, 0x1ED0, 1, 1⟩, ⟨0x1ED2, 0x1ED2, 1, 1⟩, ⟨0x1ED4, 0x1ED4, 1, 1⟩, ⟨0x1ED6, 0x1ED6, 1, 1⟩,
  ⟨0x1ED8, 0x1ED8, 1, 1⟩, ⟨0x1EDA, 0x1EDA, 1, 1⟩, ⟨0x1EDC, 0x1EDC, 1, 1⟩, ⟨0x1EDE, 0x1EDE, 1, 1⟩,
  ⟨0x1EE0, 0x1EE0, 1, 1⟩, ⟨0x1EE2, 0x1EE2, 1, 1⟩, ⟨0x1EE4, 0x1EE4, 1, 1⟩, ⟨0x1EE6, 0x1EE6, 1, 1⟩,
  ⟨0x1EE8, 0x1EE8, 1, 1⟩, ⟨0x1EEA, 0x1EEA, 1, 1⟩, ⟨0x1EEC, 0x1EEC, 1, 1⟩, ⟨0x1EEE, 0x1EEE, 1, 1⟩,
  ⟨0x1EF0, 0x1EF0, 1, 1⟩, ⟨0x1EF2, 0x1EF2, 1, 1⟩, ⟨0x1EF4, 0x1EF4, 1, 1⟩, ⟨0x1EF6, 0x1EF6, 1, 1⟩,
  ⟨0x1EF8, 0x1EF8, 1, 1⟩, ⟨0x1EFA, 0x1EFA, 1, 1⟩, ⟨0x1EFC, 0x1EFC, 1, 1⟩, ⟨0x1EFE, 0x1EFE, 1, 1⟩,
  ⟨0x1F08, 0x1F0F, 1, -8⟩, ⟨0x1F18, 0x1F1D, 1, -8⟩, ⟨0x1F28, 0x1F2F, 1, -8⟩,
  ⟨0x1F38, 0x1F3F, 1, -8⟩, ⟨0x1F48, 0x1F4D, 1, -8⟩, ⟨0x1F59, 0x1F59, 1, -8⟩,
  ⟨0x1F5B, 0x1F5B, 1, -8⟩, ⟨0x1F5D, 0x1F5D, 1, -8⟩, ⟨0x1F5F, 0x1F5F, 1, -8⟩,
  ⟨0x1F68, 0x1F6F, 1, -8⟩, ⟨0x1F88, 0x1F8F, 1, -8⟩, ⟨0x1F98, 0x1F9F, 1, -8⟩,
  ⟨0x1FA8, 0x1FAF, 1, -8⟩, ⟨0x1FB8, 0x1FB9, 1, -8⟩, ⟨0x1FBA, 0x1FBB, 1, -74⟩,
  ⟨0x1FBC, 0x1FBC, 1, -9⟩, ⟨0x1FC8, 0x1FCB, 1, -86⟩, ⟨0x1FCC, 0x1FCC, 1, -9⟩,
  ⟨0x1FD8, 0x1FD9, 1, -8⟩, ⟨0x1FDA, 0x1FDB, 1, -100⟩, ⟨0x1FE8, 0x1FE9, 1, -8⟩,
  ⟨0x1FEA, 0x1FEB, 1, -112⟩, ⟨0x1FEC, 0x1FEC, 1, -7⟩, ⟨0x1FF8, 0x1FF9, 1, -128⟩,
  ⟨0x1FFA, 0x1FFB, 1, -126⟩, ⟨0x1FFC, 0x1FFC, 1, -9⟩, ⟨0x2126, 0x2126, 1, -7517⟩,
  ⟨0x212A, 0x212A, 1, -8383⟩, ⟨0x212B, 0x212B, 1, -8262⟩, ⟨0x2132, 0x2132, 1, 28⟩,
  ⟨0x2160, 0x216F, 1, 16⟩, ⟨0x2183, 0x2183, 1, 1⟩, ⟨0x24B6, 0x24CF, 1, 26⟩,
  ⟨0x2C00, 0x2C2F, 1, 48⟩, ⟨0x2C60, 0x2C60, 1, 1⟩, ⟨0x2C62, 0x2C62, 1, -10743⟩,
  ⟨0x2C63, 0x2C63, 1, -3814⟩, ⟨0x2C64, 0x2C64, 1, -10727⟩, ⟨0x2C67, 0x2C67, 1, 1⟩,
  ⟨0x2C69, 0x2C69, 1, 1⟩, ⟨0x2C6B, 0x2C6B, 1, 1⟩, ⟨0x2C6D, 0x2C6D, 1, -10780⟩,
  ⟨0x2C6E, 0x2C6E, 1, -10749⟩, ⟨0x2C6F, 0x2C6F, 1, -10783⟩, ⟨0x2C70, 0x2C70, 1, -10782⟩,
  ⟨0x2C72, 0x2C72, 1, 1⟩, ⟨0x2C75, 0x2C75, 1, 1⟩, ⟨0x2C7E, 0x2C7F, 1, -10815⟩,
  ⟨0x2C80, 0x2C80, 1, 1⟩, ⟨0x2C82, 0x2C82, 1, 1⟩, ⟨0x2C84, 0x2C84, 1, 1⟩, ⟨0x2C86, 0x2C86, 1, 1⟩,
  ⟨0x2C88, 0x2C88, 1, 1⟩, ⟨0x2C8A, 0x2C8A, 1, 1⟩, ⟨0x2C8C, 0x2C8C, 1, 1⟩, ⟨0x2C8E, 0x2C8E, 1, 1⟩,
  ⟨0x2C90, 0x2C90, 1, 1⟩, ⟨0x2C92, 0x2C92, 1, 1⟩, ⟨0x2C94, 0x2C94, 1, 1⟩, ⟨0x2C96, 0x2C96, 1, 1⟩,
  ⟨0x2C98, 0x2C98, 1, 1⟩, ⟨0x2C9A, 0x2C9A, 1, 1⟩, ⟨0x2C9C, 0x2C9C, 1, 1⟩, ⟨0x2C9E, 0x2C9E, 1, 1⟩,
  ⟨0x2CA0, 0x2CA0, 1, 1⟩, ⟨0x2CA2, 0x2CA2, 1, 1⟩, ⟨0x2CA4, 0x2CA4, 1, 1⟩, ⟨0x2CA6, 0x2CA6, 1, 1⟩,
  ⟨0x2CA8, 0x2CA8, 1, 1⟩, ⟨0x2CAA, 0x2CAA, 1, 1⟩, ⟨0x2CAC, 0x2CAC, 1, 1⟩, ⟨0x2CAE, 0x2CAE, 1, 1⟩,
  ⟨0x2CB0, 0x2CB0, 1, 1⟩, ⟨0x2CB2, 0x2CB2, 1, 1⟩, ⟨0x2CB4, 0x2CB4, 1, 1⟩, ⟨0x2CB6, 0x2CB6, 1, 1⟩,
  ⟨0x2CB8, 0x2CB8, 1, 1⟩, ⟨0x2CBA, 0x2CBA, 1, 1⟩, ⟨0x2CBC, 0x2CBC, 1, 1⟩, ⟨0x2CBE, 0x2CBE, 1, 1⟩,
  ⟨0x2CC0, 0x2CC0, 1, 1⟩, ⟨0x2CC2, 0x2CC2, 1, 1⟩, ⟨0x2CC4, 0x2CC4, 1, 1⟩, ⟨0x2CC6, 0x2CC6, 1, 1⟩,
  ⟨0x2CC8, 0x2CC8, 1, 1⟩, ⟨0x2CCA, 0x2CCA, 1, 1⟩, ⟨0x2CCC, 0x2CCC, 1, 1⟩, ⟨0x2CCE, 0x2CCE, 1, 1⟩,
  ⟨0x2CD0, 0x2CD0, 1, 1⟩, ⟨0x2CD2, 0x2CD2, 1, 1⟩, ⟨0x2CD4, 0x2CD4, 1, 1⟩, ⟨0x2CD6, 0x2CD6, 1, 1⟩,
  ⟨0x2CD8, 0x2CD8, 1, 1⟩, ⟨0x2CDA, 0x2CDA, 1, 1⟩, ⟨0x2CDC, 0x2CDC, 1, 1⟩, ⟨0x2CDE, 0x2CDE, 1, 1⟩,
  ⟨0x2CE0, 0x2CE0, 1, 1⟩, ⟨0x2CE2, 0x2CE2, 1, 1⟩, ⟨0x2CEB, 0x2CEB, 1, 1⟩, ⟨0x2CED, 0x2CED, 1, 1⟩,
  ⟨0x2CF2, 0x2CF2, 1, 1⟩, ⟨0xA640, 0xA640, 1, 1⟩, ⟨0xA642, 0xA642, 1, 1⟩, ⟨0xA644, 0xA644, 1, 1⟩,
  ⟨0xA646, 0xA646, 1, 1⟩, ⟨0xA648, 0xA648, 1, 1⟩, ⟨0xA64A, 0xA64A, 1, 1⟩, ⟨0xA64C, 0xA64C, 1, 1⟩,
  ⟨0xA64E, 0xA64E, 1, 1⟩, ⟨0xA650, 0xA650, 1, 1⟩, ⟨0xA652, 0xA652, 1, 1⟩, ⟨0xA654, 0xA654, 1, 1⟩,
  ⟨0xA656, 0xA656, 1, 1⟩, ⟨0xA658, 0xA658, 1, 1⟩, ⟨0xA65A, 0xA65A, 1, 1⟩, ⟨0xA65C, 0xA65C, 1, 1⟩,
  ⟨0xA65E, 0xA65E, 1, 1⟩, ⟨0xA660, 0xA660, 1, 1⟩, ⟨0xA662, 0xA662, 1, 1⟩, ⟨0xA664, 0xA664, 1, 1⟩,
  ⟨0xA666, 0xA666, 1, 1⟩, ⟨0xA668, 0xA668, 1, 1⟩, ⟨0xA66A, 0xA66A, 1, 1⟩, ⟨0xA66C, 0xA66C, 1, 1⟩,
  ⟨0xA680, 0xA680, 1, 1⟩, ⟨0xA682, 0xA682, 1, 1⟩, ⟨0xA684, 0xA684, 1, 1⟩, ⟨0xA686, 0xA686, 1, 1⟩,
  ⟨0xA688, 0xA688, 1, 1⟩, ⟨0xA68A, 0xA68A, 1, 1⟩, ⟨0xA68C, 0xA68C, 1, 1⟩, ⟨0xA68E, 0xA68E, 1, 1⟩,
  ⟨0xA690, 0xA690, 1, 1⟩, ⟨0xA692, 0xA692, 1, 1⟩, ⟨0xA694, 0xA694, 1, 1⟩, ⟨0xA696, 0xA696, 1, 1⟩,
  ⟨0xA698, 0xA698, 1, 1⟩, ⟨0xA69A, 0xA69A, 1, 1⟩, ⟨0xA722, 0xA722, 1, 1⟩, ⟨0xA724, 0xA724, 1, 1⟩,
  ⟨0xA726, 0xA726, 1, 1⟩, ⟨0xA728, 0xA728, 1, 1⟩, ⟨0xA72A, 0xA72A, 1, 1⟩, ⟨0xA72C, 0xA72C, 1, 1⟩,
  ⟨0xA72E, 0xA72E, 1, 1⟩, ⟨0xA732, 0xA732, 1, 1⟩, ⟨0xA734, 0xA734, 1, 1⟩, ⟨0xA736, 0xA736, 1, 1⟩,
  ⟨0xA738, 0xA738, 1, 1⟩, ⟨0xA73A, 0xA73A, 1, 1⟩, ⟨0xA73C, 0xA73C, 1, 1⟩, ⟨0xA73E, 0xA73E, 1, 1⟩,
  ⟨0xA740, 0xA740, 1, 1⟩, ⟨0xA742, 0xA742, 1, 1⟩, ⟨0xA744, 0xA744, 1, 1⟩, ⟨0xA746, 0xA746, 1, 1⟩,
  ⟨0xA748, 0xA748, 1, 1⟩, ⟨0xA74A, 0xA74A, 1, 1⟩, ⟨0xA74C, 0xA74C, 1, 1⟩, ⟨0xA74E, 0xA74E, 1, 1⟩,
  ⟨0xA750, 0xA750, 1, 1⟩, ⟨0xA752, 0xA752, 1, 1⟩, ⟨0xA754, 0xA754, 1, 1⟩, ⟨0xA756, 0xA756, 1, 1⟩,
  ⟨0xA758, 0xA758, 1, 1⟩, ⟨0xA75A, 0xA75A, 1, 1⟩, ⟨0xA75C, 0xA75C, 1, 1⟩, ⟨0xA75E, 0xA75E, 1, 1⟩,
  ⟨0xA760, 0xA760, 1, 1⟩, ⟨0xA762, 0xA762, 1, 1⟩, ⟨0xA764, 0xA764, 1, 1⟩, ⟨0xA766, 0xA766, 1, 1⟩,
  ⟨0xA768, 0xA768, 1, 1⟩, ⟨0xA76A, 0xA76A, 1, 1⟩, ⟨0xA76C, 0xA76C, 1, 1⟩, ⟨0xA76E, 0xA76E, 1, 1⟩,
  ⟨0xA779, 0xA779, 1, 1⟩, ⟨0xA77B, 0xA77B, 1, 1⟩, ⟨0xA77D, 0xA77D, 1, -35332⟩,
  ⟨0xA77E, 0xA77E, 1, 1⟩, ⟨0xA780, 0xA780, 1, 1⟩, ⟨0xA782, 0xA782, 1, 1⟩, ⟨0xA784, 0xA784, 1, 1⟩,
  ⟨0xA786, 0xA786, 1, 1⟩, ⟨0xA78B, 0xA78B, 1, 1⟩, ⟨0xA78D, 0xA78D, 1, -42280⟩,
  ⟨0xA790, 0xA790, 1, 1⟩, ⟨0xA792, 0xA792, 1, 1⟩, ⟨0xA796, 0xA796, 1, 1⟩, ⟨0xA798, 0xA798, 1, 1⟩,
  ⟨0xA79A, 0xA79A, 1, 1⟩, ⟨0xA79C, 0xA79C, 1, 1⟩, ⟨0xA79E, 0xA79E, 1, 1⟩, ⟨0xA7A0, 0xA7A0, 1, 1⟩,
  ⟨0xA7A2, 0xA7A2, 1, 1⟩, ⟨0xA7A4, 0xA7A4, 1, 1⟩, ⟨0xA7A6, 0xA7A6, 1, 1⟩, ⟨0xA7A8, 0xA7A8, 1, 1⟩,
  ⟨0xA7AA, 0xA7AA, 1, -42308⟩, ⟨0xA7AB, 0xA7AB, 1, -42319⟩, ⟨0xA7AC, 0xA7AC, 1, -42315⟩,
  ⟨0xA7AD, 0xA7AD, 1, -42305⟩, ⟨0xA7AE, 0xA7AE, 1, -42308⟩, ⟨0xA7B0, 0xA7B0, 1, -42258⟩,
  ⟨0xA7B1, 0xA7B1, 1, -42282⟩, ⟨0xA7B2, 0xA7B2, 1, -42261⟩, ⟨0xA7B3, 0xA7B3, 1, 928⟩,
  ⟨0xA7B4, 0xA7B4, 1, 1⟩, ⟨0xA7B6, 0xA7B6, 1, 1⟩, ⟨0xA7B8, 0xA7B8, 1, 1⟩, ⟨0xA7BA, 0xA7BA, 1, 1⟩,
  ⟨0xA7BC, 0xA7BC, 1, 1⟩, ⟨0xA7BE, 0xA7BE, 1, 1⟩, ⟨0xA7C0, 0xA7C0, 1, 1⟩, ⟨0xA7C2, 0xA7C2, 1, 1⟩,
  ⟨0xA7C4, 0xA7C4, 1, -48⟩, ⟨0xA7C5, 0xA7C5, 1, -42307⟩, ⟨0xA7C6, 0xA7C6, 1, -35384⟩,
  ⟨0xA7C7, 0xA7C7, 1, 1⟩, ⟨0xA7C9, 0xA7C9, 1, 1⟩, ⟨0xA7D0, 0xA7D0, 1, 1⟩, ⟨0xA7D6, 0xA7D6, 1, 1⟩,
  ⟨0xA7D8, 0xA7D8, 1, 1⟩, ⟨0xA7F5, 0xA7F5, 1, 1⟩, ⟨0xFF21, 0xFF3A, 1, 32⟩,
  ⟨0x10400, 0x10427, 1, 40⟩, ⟨0x104B0, 0x104D3, 1, 40⟩, ⟨0x10570, 0x1057A, 1, 39⟩,
  ⟨0x1057C, 0x1058A, 1, 39⟩, ⟨0x1058C, 0x10592, 1, 39⟩, ⟨0x10594, 0x10595, 1, 39⟩,
  ⟨0x10C80, 0x10CB2, 1, 64⟩, ⟨0x118A0, 0x118BF, 1, 32⟩, ⟨0x16E40, 0x16E5F, 1, 32⟩,
  ⟨0x1E900, 0x1E921, 1, 34⟩]

/-- The lower-case form of a character: one character, but for the dotted capital I, whose dot
becomes a character of its own. -/
def lowerChar (c : Char) : List Char :=
  if c.toNat < 0x80 then [c.toLower]
  else if c.toNat = 0x130 then ['i', Char.ofNat 0x307]
  else
    match lowerRuns.find? (·.covers c.toNat) with
    | some run => [Char.ofNat (c.toNat + run.shift).toNat]
    | none => [c]

/-- The lower-case form of a capital sigma between two texts, the first of which is given from its
end: the final form behind a letter with a case and not in front of one. -/
def lowerSigma (before after : List Char) : Char :=
  if startsCased before && !startsCased after then 'ς' else 'σ'

/-- The lower-case form of a text behind another one, which is given from its end. -/
def lowerBehind : (before : List Char) → List Char → List Char
  | _, [] => []
  | before, c :: rest =>
    (if c = 'Σ' then [lowerSigma before rest] else lowerChar c) ++ lowerBehind (c :: before) rest

/-- The lower-case form of a text. -/
def lower (text : String) : String := String.ofList (lowerBehind [] text.toList)

end AnnotatedShader.Text
