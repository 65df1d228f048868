import ScriptCore.Text.Cased

namespace ScriptCore.Case

/-- The letters whose other case lies `shift` away: runs of every `step`-th code point, each with
the first one and how many there are. -/
structure Letters where
  shift : Int
  step : Nat
  runs : List (Nat × Nat)

def toUpper : List Letters := [
    ⟨-32, 1, [(97, 26), (224, 23), (248, 7), (945, 17), (963, 9), (1072, 32), (65345, 26), (71872, 32), (93792, 32)]⟩,
    ⟨743, 1, [(181, 1)]⟩, ⟨121, 1, [(255, 1)]⟩, ⟨-1, 2, [(257, 24), (307, 3), (314, 8), (331, 23),
    (378, 3), (387, 2), (392, 1),
    (396, 1), (402, 1), (409, 1), (417, 3), (424, 1), (429, 1), (432, 1), (436, 2), (441, 1), (445, 1), (453, 1), (456, 1),
    (459, 1), (462, 8), (479, 9), (498, 1), (501, 1), (505, 20), (547, 9), (572, 1), (578, 1), (583, 5), (881, 2), (887, 1),
    (985, 12), (1016, 1), (1019, 1), (1121, 17), (1163, 27), (1218, 7), (1233, 48), (7681, 75),
    (7841, 48), (8580, 1), (11361, 1),
    (11368, 3), (11379, 1), (11382, 1), (11393, 50), (11500, 2), (11507, 1), (42561, 23),
    (42625, 14), (42787, 7), (42803, 31),
    (42874, 2), (42879, 5), (42892, 1), (42897, 2), (42903, 10), (42933, 8), (42952, 2), (42961, 1),
    (42967, 2), (42998, 1)]⟩,
    ⟨-232, 1, [(305, 1)]⟩, ⟨-300, 1, [(383, 1)]⟩, ⟨195, 1, [(384, 1)]⟩, ⟨97, 1, [(405, 1)]⟩, ⟨163, 1, [(410, 1)]⟩,
    ⟨130, 1, [(414, 1), (891, 3)]⟩, ⟨56, 1, [(447, 1)]⟩,
    ⟨-2, 1, [(454, 1), (457, 1), (460, 1), (499, 1)]⟩, ⟨-79, 1, [(477, 1)]⟩,
    ⟨10815, 1, [(575, 2)]⟩, ⟨10783, 1, [(592, 1)]⟩, ⟨10780, 1, [(593, 1)]⟩, ⟨10782, 1, [(594, 1)]⟩, ⟨-210, 1, [(595, 1)]⟩,
    ⟨-206, 1, [(596, 1)]⟩, ⟨-205, 1, [(598, 2), (608, 1)]⟩, ⟨-202, 1, [(601, 1)]⟩,
    ⟨-203, 1, [(603, 1)]⟩, ⟨42319, 1, [(604, 1)]⟩,
    ⟨42315, 1, [(609, 1)]⟩, ⟨-207, 1, [(611, 1)]⟩, ⟨42280, 1, [(613, 1)]⟩, ⟨42308, 1, [(614, 1), (618, 1)]⟩,
    ⟨-209, 1, [(616, 1)]⟩, ⟨-211, 1, [(617, 1), (623, 1)]⟩, ⟨10743, 1, [(619, 1)]⟩, ⟨42305, 1, [(620, 1)]⟩,
    ⟨10749, 1, [(625, 1)]⟩, ⟨-213, 1, [(626, 1)]⟩, ⟨-214, 1, [(629, 1)]⟩, ⟨10727, 1, [(637, 1)]⟩,
    ⟨-218, 1, [(640, 1), (643, 1),
    (648, 1)]⟩, ⟨42307, 1, [(642, 1)]⟩, ⟨42282, 1, [(647, 1)]⟩, ⟨-69, 1, [(649, 1)]⟩,
    ⟨-217, 1, [(650, 2)]⟩, ⟨-71, 1, [(652, 1)]⟩,
    ⟨-219, 1, [(658, 1)]⟩, ⟨42261, 1, [(669, 1)]⟩, ⟨42258, 1, [(670, 1)]⟩, ⟨84, 1, [(837, 1)]⟩, ⟨-38, 1, [(940, 1)]⟩,
    ⟨-37, 1, [(941, 3)]⟩, ⟨-31, 1, [(962, 1)]⟩, ⟨-64, 1, [(972, 1), (68800, 51)]⟩,
    ⟨-63, 1, [(973, 2)]⟩, ⟨-62, 1, [(976, 1)]⟩,
    ⟨-57, 1, [(977, 1)]⟩, ⟨-47, 1, [(981, 1)]⟩, ⟨-54, 1, [(982, 1)]⟩, ⟨-8, 1, [(983, 1), (5112, 6)]⟩, ⟨-86, 1, [(1008, 1)]⟩,
    ⟨-80, 1, [(1009, 1), (1104, 16)]⟩, ⟨7, 1, [(1010, 1), (8165, 1)]⟩, ⟨-116, 1, [(1011, 1)]⟩, ⟨-96, 1, [(1013, 1)]⟩,
    ⟨-15, 1, [(1231, 1)]⟩, ⟨-48, 1, [(1377, 38), (11312, 48)]⟩, ⟨3008, 1, [(4304, 43), (4349, 3)]⟩, ⟨-6254, 1, [(7296, 1)]⟩,
    ⟨-6253, 1, [(7297, 1)]⟩, ⟨-6244, 1, [(7298, 1)]⟩, ⟨-6242, 1, [(7299, 2)]⟩,
    ⟨-6243, 1, [(7301, 1)]⟩, ⟨-6236, 1, [(7302, 1)]⟩,
    ⟨-6181, 1, [(7303, 1)]⟩, ⟨35266, 1, [(7304, 1)]⟩, ⟨35332, 1, [(7545, 1)]⟩,
    ⟨3814, 1, [(7549, 1)]⟩, ⟨35384, 1, [(7566, 1)]⟩,
    ⟨-59, 1, [(7835, 1)]⟩, ⟨8, 1, [(7936, 8), (7952, 6), (7968, 8), (7984, 8), (8000, 6), (8032, 8), (8112, 2), (8144, 2),
    (8160, 2)]⟩, ⟨8, 2, [(8017, 4)]⟩, ⟨74, 1, [(8048, 2)]⟩, ⟨86, 1, [(8050, 4)]⟩,
    ⟨100, 1, [(8054, 2)]⟩, ⟨128, 1, [(8056, 2)]⟩,
    ⟨112, 1, [(8058, 2)]⟩, ⟨126, 1, [(8060, 2)]⟩, ⟨-7205, 1, [(8126, 1)]⟩, ⟨-28, 1, [(8526, 1)]⟩, ⟨-16, 1, [(8560, 16)]⟩,
    ⟨-26, 1, [(9424, 26)]⟩, ⟨-10795, 1, [(11365, 1)]⟩, ⟨-10792, 1, [(11366, 1)]⟩, ⟨-7264, 1, [(11520, 38), (11559, 1),
    (11565, 1)]⟩, ⟨48, 1, [(42900, 1)]⟩, ⟨-928, 1, [(43859, 1)]⟩, ⟨-38864, 1, [(43888, 80)]⟩, ⟨-40, 1, [(66600, 40),
    (66776, 36)]⟩, ⟨-39, 1, [(66967, 11), (66979, 15), (66995, 7), (67003, 2)]⟩, ⟨-34, 1, [(125218, 34)]⟩]

def toLower : List Letters := [
    ⟨32, 1, [(65, 26), (192, 23), (216, 7), (913, 17), (931, 9), (1040, 32), (65313, 26), (71840, 32), (93760, 32)]⟩,
    ⟨1, 2, [(256, 24), (306, 3), (313, 8), (330, 23), (377, 3), (386, 2), (391, 1), (395, 1), (401, 1), (408, 1), (416, 3),
    (423, 1), (428, 1), (431, 1), (435, 2), (440, 1), (444, 1), (453, 1), (456, 1), (459, 9), (478, 9), (498, 2), (504, 20),
    (546, 9), (571, 1), (577, 1), (582, 5), (880, 2), (886, 1), (984, 12), (1015, 1), (1018, 1), (1120, 17), (1162, 27),
    (1217, 7), (1232, 48), (7680, 75), (7840, 48), (8579, 1), (11360, 1), (11367, 3), (11378, 1), (11381, 1), (11392, 50),
    (11499, 2), (11506, 1), (42560, 23), (42624, 14), (42786, 7), (42802, 31), (42873, 2),
    (42878, 5), (42891, 1), (42896, 2),
    (42902, 10), (42932, 8), (42951, 2), (42960, 1), (42966, 2), (42997, 1)]⟩, ⟨-121, 1, [(376, 1)]⟩, ⟨210, 1, [(385, 1)]⟩,
    ⟨206, 1, [(390, 1)]⟩, ⟨205, 1, [(393, 2), (403, 1)]⟩, ⟨79, 1, [(398, 1)]⟩, ⟨202, 1, [(399, 1)]⟩, ⟨203, 1, [(400, 1)]⟩,
    ⟨207, 1, [(404, 1)]⟩, ⟨211, 1, [(406, 1), (412, 1)]⟩, ⟨209, 1, [(407, 1)]⟩, ⟨213, 1, [(413, 1)]⟩, ⟨214, 1, [(415, 1)]⟩,
    ⟨218, 1, [(422, 1), (425, 1), (430, 1)]⟩, ⟨217, 1, [(433, 2)]⟩, ⟨219, 1, [(439, 1)]⟩,
    ⟨2, 1, [(452, 1), (455, 1), (458, 1),
    (497, 1)]⟩, ⟨-97, 1, [(502, 1)]⟩, ⟨-56, 1, [(503, 1)]⟩, ⟨-130, 1, [(544, 1), (1021, 3)]⟩, ⟨10795, 1, [(570, 1)]⟩,
    ⟨-163, 1, [(573, 1)]⟩, ⟨10792, 1, [(574, 1)]⟩, ⟨-195, 1, [(579, 1)]⟩, ⟨69, 1, [(580, 1)]⟩, ⟨71, 1, [(581, 1)]⟩,
    ⟨116, 1, [(895, 1)]⟩, ⟨38, 1, [(902, 1)]⟩, ⟨37, 1, [(904, 3)]⟩, ⟨64, 1, [(908, 1), (68736, 51)]⟩, ⟨63, 1, [(910, 2)]⟩,
    ⟨8, 1, [(975, 1), (5104, 6)]⟩, ⟨-60, 1, [(1012, 1)]⟩, ⟨-7, 1, [(1017, 1), (8172, 1)]⟩, ⟨80, 1, [(1024, 16)]⟩,
    ⟨15, 1, [(1216, 1)]⟩, ⟨48, 1, [(1329, 38), (11264, 48)]⟩, ⟨7264, 1, [(4256, 38), (4295, 1), (4301, 1)]⟩,
    ⟨38864, 1, [(5024, 80)]⟩, ⟨-3008, 1, [(7312, 43), (7357, 3)]⟩, ⟨-7615, 1, [(7838, 1)]⟩, ⟨-8, 1, [(7944, 8), (7960, 6),
    (7976, 8), (7992, 8), (8008, 6), (8040, 8), (8072, 8), (8088, 8), (8104, 8), (8120, 2), (8152, 2), (8168, 2)]⟩,
    ⟨-8, 2, [(8025, 4)]⟩, ⟨-74, 1, [(8122, 2)]⟩, ⟨-9, 1, [(8124, 1), (8140, 1), (8188, 1)]⟩, ⟨-86, 1, [(8136, 4)]⟩,
    ⟨-100, 1, [(8154, 2)]⟩, ⟨-112, 1, [(8170, 2)]⟩, ⟨-128, 1, [(8184, 2)]⟩, ⟨-126, 1, [(8186, 2)]⟩, ⟨-7517, 1, [(8486, 1)]⟩,
    ⟨-8383, 1, [(8490, 1)]⟩, ⟨-8262, 1, [(8491, 1)]⟩, ⟨28, 1, [(8498, 1)]⟩, ⟨16, 1, [(8544, 16)]⟩, ⟨26, 1, [(9398, 26)]⟩,
    ⟨-10743, 1, [(11362, 1)]⟩, ⟨-3814, 1, [(11363, 1)]⟩, ⟨-10727, 1, [(11364, 1)]⟩, ⟨-10780, 1, [(11373, 1)]⟩,
    ⟨-10749, 1, [(11374, 1)]⟩, ⟨-10783, 1, [(11375, 1)]⟩, ⟨-10782, 1, [(11376, 1)]⟩, ⟨-10815, 1, [(11390, 2)]⟩,
    ⟨-35332, 1, [(42877, 1)]⟩, ⟨-42280, 1, [(42893, 1)]⟩, ⟨-42308, 1, [(42922, 1), (42926, 1)]⟩, ⟨-42319, 1, [(42923, 1)]⟩,
    ⟨-42315, 1, [(42924, 1)]⟩, ⟨-42305, 1, [(42925, 1)]⟩, ⟨-42258, 1, [(42928, 1)]⟩, ⟨-42282, 1, [(42929, 1)]⟩,
    ⟨-42261, 1, [(42930, 1)]⟩, ⟨928, 1, [(42931, 1)]⟩, ⟨-48, 1, [(42948, 1)]⟩, ⟨-42307, 1, [(42949, 1)]⟩,
    ⟨-35384, 1, [(42950, 1)]⟩, ⟨40, 1, [(66560, 40), (66736, 36)]⟩,
    ⟨39, 1, [(66928, 11), (66940, 15), (66956, 7), (66964, 2)]⟩,
    ⟨34, 1, [(125184, 34)]⟩]

def longUpper : List (Nat × List Nat) :=
  [
    (0xDF, [0x53, 0x53]), (0x149, [0x2BC, 0x4E]), (0x1F0, [0x4A, 0x30C]), (0x390, [0x399, 0x308, 0x301]),
    (0x3B0, [0x3A5, 0x308, 0x301]), (0x587, [0x535, 0x552]), (0x1E96, [0x48, 0x331]), (0x1E97, [0x54, 0x308]),
    (0x1E98, [0x57, 0x30A]), (0x1E99, [0x59, 0x30A]), (0x1E9A, [0x41, 0x2BE]), (0x1F50, [0x3A5, 0x313]),
    (0x1F52, [0x3A5, 0x313, 0x300]), (0x1F54, [0x3A5, 0x313, 0x301]), (0x1F56, [0x3A5, 0x313, 0x342]),
    (0x1F80, [0x1F08, 0x399]), (0x1F81, [0x1F09, 0x399]), (0x1F82, [0x1F0A, 0x399]), (0x1F83, [0x1F0B, 0x399]),
    (0x1F84, [0x1F0C, 0x399]), (0x1F85, [0x1F0D, 0x399]), (0x1F86, [0x1F0E, 0x399]), (0x1F87, [0x1F0F, 0x399]),
    (0x1F88, [0x1F08, 0x399]), (0x1F89, [0x1F09, 0x399]), (0x1F8A, [0x1F0A, 0x399]), (0x1F8B, [0x1F0B, 0x399]),
    (0x1F8C, [0x1F0C, 0x399]), (0x1F8D, [0x1F0D, 0x399]), (0x1F8E, [0x1F0E, 0x399]), (0x1F8F, [0x1F0F, 0x399]),
    (0x1F90, [0x1F28, 0x399]), (0x1F91, [0x1F29, 0x399]), (0x1F92, [0x1F2A, 0x399]), (0x1F93, [0x1F2B, 0x399]),
    (0x1F94, [0x1F2C, 0x399]), (0x1F95, [0x1F2D, 0x399]), (0x1F96, [0x1F2E, 0x399]), (0x1F97, [0x1F2F, 0x399]),
    (0x1F98, [0x1F28, 0x399]), (0x1F99, [0x1F29, 0x399]), (0x1F9A, [0x1F2A, 0x399]), (0x1F9B, [0x1F2B, 0x399]),
    (0x1F9C, [0x1F2C, 0x399]), (0x1F9D, [0x1F2D, 0x399]), (0x1F9E, [0x1F2E, 0x399]), (0x1F9F, [0x1F2F, 0x399]),
    (0x1FA0, [0x1F68, 0x399]), (0x1FA1, [0x1F69, 0x399]), (0x1FA2, [0x1F6A, 0x399]), (0x1FA3, [0x1F6B, 0x399]),
    (0x1FA4, [0x1F6C, 0x399]), (0x1FA5, [0x1F6D, 0x399]), (0x1FA6, [0x1F6E, 0x399]), (0x1FA7, [0x1F6F, 0x399]),
    (0x1FA8, [0x1F68, 0x399]), (0x1FA9, [0x1F69, 0x399]), (0x1FAA, [0x1F6A, 0x399]), (0x1FAB, [0x1F6B, 0x399]),
    (0x1FAC, [0x1F6C, 0x399]), (0x1FAD, [0x1F6D, 0x399]), (0x1FAE, [0x1F6E, 0x399]), (0x1FAF, [0x1F6F, 0x399]),
    (0x1FB2, [0x1FBA, 0x399]), (0x1FB3, [0x391, 0x399]), (0x1FB4, [0x386, 0x399]), (0x1FB6, [0x391, 0x342]),
    (0x1FB7, [0x391, 0x342, 0x399]), (0x1FBC, [0x391, 0x399]), (0x1FC2, [0x1FCA, 0x399]), (0x1FC3, [0x397, 0x399]),
    (0x1FC4, [0x389, 0x399]), (0x1FC6, [0x397, 0x342]), (0x1FC7, [0x397, 0x342, 0x399]), (0x1FCC, [0x397, 0x399]),
    (0x1FD2, [0x399, 0x308, 0x300]), (0x1FD3, [0x399, 0x308, 0x301]), (0x1FD6, [0x399, 0x342]),
    (0x1FD7, [0x399, 0x308, 0x342]), (0x1FE2, [0x3A5, 0x308, 0x300]), (0x1FE3, [0x3A5, 0x308, 0x301]),
    (0x1FE4, [0x3A1, 0x313]), (0x1FE6, [0x3A5, 0x342]), (0x1FE7, [0x3A5, 0x308, 0x342]), (0x1FF2, [0x1FFA, 0x399]),
    (0x1FF3, [0x3A9, 0x399]), (0x1FF4, [0x38F, 0x399]), (0x1FF6, [0x3A9, 0x342]), (0x1FF7, [0x3A9, 0x342, 0x399]),
    (0x1FFC, [0x3A9, 0x399]), (0xFB00, [0x46, 0x46]), (0xFB01, [0x46, 0x49]), (0xFB02, [0x46, 0x4C]),
    (0xFB03, [0x46, 0x46, 0x49]), (0xFB04, [0x46, 0x46, 0x4C]), (0xFB05, [0x53, 0x54]), (0xFB06, [0x53, 0x54]),
    (0xFB13, [0x544, 0x546]), (0xFB14, [0x544, 0x535]), (0xFB15, [0x544, 0x53B]), (0xFB16, [0x54E, 0x546]),
    (0xFB17, [0x544, 0x53D])]

def digits : List Nat := [
    48, 10, 120, 2, 5, 1, 1446, 10, 134, 10, 198, 10, 412, 10, 118, 10, 118, 10, 118, 10, 118, 10,
      118, 10, 118, 10, 118, 10, 118,
    10, 118, 10, 96, 10, 118, 10, 70, 10, 278, 10, 70, 10, 719, 9, 1134, 10, 38, 10, 300, 10, 128,
      11, 165, 10, 6, 10, 182, 10,
    86, 10, 134, 10, 6, 10, 1046, 1, 3, 6, 6, 10, 982, 9, 11, 9, 11, 9, 89, 1, 10, 9, 1, 1, 630, 9,
      1, 9, 1, 9, 32397, 10, 678,
    10, 38, 10, 198, 10, 22, 10, 86, 10, 406, 10, 21270, 10, 1414, 10, 1430, 4, 748, 10, 294, 9,
      489, 9, 11, 10, 128, 10, 60, 10,
    144, 10, 278, 10, 342, 10, 118, 10, 374, 10, 102, 10, 102, 10, 422, 10, 102, 10, 758, 10, 246,
      10, 70, 10, 19638, 10, 86, 10,
    134, 10, 27764, 50, 2368, 10, 422, 10, 1622, 10, 1958, 11, 2789, 10]

def Letters.covers (l : Letters) (n : Nat) : Bool :=
  l.runs.any fun r => decide (r.1 ≤ n) && (n - r.1) % l.step == 0 && decide ((n - r.1) / l.step < r.2)

def moved (letters : List Letters) (n : Nat) : Nat :=
  match letters.find? fun l => l.covers n with
  | some l => (n + l.shift).toNat
  | none => n

def upperChar (c : Char) : List Char :=
  if c.toNat < 128 then [c.toUpper]
  else
    match longUpper.find? fun e => e.1 == c.toNat with
    | some (_, codes) => codes.map Char.ofNat
    | none => [Char.ofNat (moved toUpper c.toNat)]

def lowerChar (c : Char) : List Char :=
  if c.toNat < 128 then [c.toLower]
  else if c.toNat = 0x130 then [Char.ofNat 0x69, Char.ofNat 0x307]
  else [Char.ofNat (moved toLower c.toNat)]

def upper (s : String) : String := String.ofList (s.toList.flatMap upperChar)

/-- Lower case after the characters `before`, nearest first. A sigma that ends a word has a form of
its own. -/
def lowerAux : List Char → List Char → List Char
  | _, [] => []
  | before, c :: cs =>
    let here :=
      if c.toNat = 0x3A3 then [Char.ofNat (if Cased.follows before && !Cased.follows cs then 0x3C2 else 0x3C3)]
      else lowerChar c
    here ++ lowerAux (c :: before) cs

def lower (s : String) : String := String.ofList (lowerAux [] s.toList)

def isDigit (c : Char) : Bool := Stretches.contain digits c.toNat

end ScriptCore.Case
