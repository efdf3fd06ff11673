import PreviewControl.Text.Hidden.Table

/-!
# Hidden characters

Characters that a quoted text cannot show as they are, because they have no shape of their own.
-/
namespace PreviewControl.Text

/-- Hidden characters have no shape of their own; below U+007F these are the controls. -/
def isHidden (c : Char) : Bool :=
  let n := c.toNat
  if n < 0x7f then n < 0x20 else hiddenRanges.any fun r => r.1 ≤ n && n ≤ r.2

end PreviewControl.Text
