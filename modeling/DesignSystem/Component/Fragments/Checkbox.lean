import DesignSystem.Component.Fragments.Basic
/-!
# Fragments of the checkbox
-/

namespace DesignSystem.Fragments

/-- The fragments of the checkbox. -/
def checkbox : Fragments where
  styles := Text.lines [
    ".checkbox \x7b",
    "  display: inline-flex;",
    "  align-items: center;",
    "  gap: var(--ds-geometry-spacing-2);",
    "  font-family: var(--ds-typography-variants-label-fontFamily);",
    "  font-size: var(--ds-typography-variants-label-fontSize);",
    "  font-weight: var(--ds-typography-variants-label-fontWeight);",
    "  line-height: var(--ds-typography-variants-label-lineHeight);",
    "  color: var(--ds-color-text);",
    "  cursor: pointer;",
    "\x7d",
    "",
    ".box \x7b",
    "  width: var(--ds-geometry-spacing-4);",
    "  height: var(--ds-geometry-spacing-4);",
    "  margin: 0;",
    "  accent-color: var(--ds-color-primary);",
    "  border-radius: var(--ds-geometry-radius-sm);",
    "  cursor: inherit;",
    "\x7d",
    "",
    ".box:focus-visible \x7b",
    "  outline: 2px solid var(--ds-color-focusRing);",
    "  outline-offset: 2px;",
    "\x7d",
    "",
    ".disabled \x7b",
    "  opacity: 0.5;",
    "  cursor: not-allowed;",
    "\x7d"]
  element := Text.lines [
    "<label class=\"checkbox $\x7bthis.disabled ? 'disabled' : ''\x7d\">",
    "  <input class=\"box\" type=\"checkbox\" $\x7bthis.checked ? 'checked' : ''\x7d $\x7bthis.disabled ? 'disabled' : ''\x7d />",
    "  <span>$\x7bescapeHtml(this.label)\x7d</span>",
    "</label>"]
  reactView := Text.lines [
    "const [isChecked, setChecked] = useState(checked);",
    "",
    "useEffect(() => \x7b",
    "  setChecked(checked);",
    "\x7d, [checked]);",
    "",
    "return (",
    "  <label className=\x7bcx(styles.checkbox, disabled && styles.disabled, className)\x7d>",
    "    <input",
    "      className=\x7bstyles.box\x7d",
    "      type=\"checkbox\"",
    "      checked=\x7bisChecked\x7d",
    "      disabled=\x7bdisabled\x7d",
    "      onChange=\x7b(event) => \x7b",
    "        setChecked(event.target.checked);",
    "        onCheckedChange?.(event.target.checked);",
    "      \x7d\x7d",
    "    />",
    "    <span>\x7blabel\x7d</span>",
    "  </label>",
    ");"]
  angularView := Text.lines [
    "<label class=\"checkbox\" [class.disabled]=\"disabled\">",
    "  <input",
    "    class=\"box\"",
    "    type=\"checkbox\"",
    "    [checked]=\"checked\"",
    "    [disabled]=\"disabled\"",
    "    (change)=\"checked = $any($event.target).checked; checkedChange.emit(checked)\"",
    "  />",
    "  <span>\x7b\x7b label \x7d\x7d</span>",
    "</label>"]
  elementMembers := none
  angularMembers := none

end DesignSystem.Fragments
