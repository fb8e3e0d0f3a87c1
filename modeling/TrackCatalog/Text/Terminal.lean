/-!
# Text for a terminal

Some characters do not print but steer the terminal. Where free text goes into a line of the log,
they are shown by number. Tabs, line breaks and the other controls stay as they are.

* `steers`: the characters in question.
* `forTerminal`: the text with these characters shown by number.
-/

namespace TrackCatalog.Text

/-- The character steers a terminal: the bell, backspace, form feed, escape and delete, and the
controls after the ASCII characters. -/
def steers (c : Char) : Bool :=
  c = '\x07' || c = '\x08' || c = '\x0c' || c = '\x1b' || c = '\x7f' ||
    (0x80 ≤ c.toNat && c.toNat ≤ 0x9F)

/-- A character by number: two hexadecimal digits for ASCII, and the code point in braces beyond. -/
def byNumber (c : Char) : List Char :=
  let digits := Nat.toDigits 16 c.toNat
  if c.toNat < 0x10 then ['\\', 'x', '0'] ++ digits
  else if c.toNat < 0x80 then ['\\', 'x'] ++ digits
  else ['\\', 'u', '\x7b'] ++ digits ++ ['\x7d']

/-- The text with the characters that steer a terminal shown by number. -/
def forTerminal (s : String) : String :=
  .ofList (s.toList.flatMap fun c => if steers c then byNumber c else [c])

end TrackCatalog.Text
