import DesignSystem.Component.Fragments.Basic
/-!
# Fragments of the switch
-/

namespace DesignSystem.Fragments

/-- The fragments of the switch. -/
def switch : Fragments where
  styles := Text.lines [
    ".switch \x7b",
    "  display: inline-flex;",
    "  align-items: center;",
    "  gap: var(--ds-geometry-spacing-2);",
    "  font-family: var(--ds-typography-variants-label-fontFamily);",
    "  font-size: var(--ds-typography-variants-label-fontSize);",
    "  font-weight: var(--ds-typography-variants-label-fontWeight);",
    "  line-height: var(--ds-typography-variants-label-lineHeight);",
    "  color: var(--ds-color-text);",
    "\x7d",
    "",
    ".track \x7b",
    "  position: relative;",
    "  flex-shrink: 0;",
    "  width: var(--ds-geometry-spacing-10);",
    "  height: var(--ds-geometry-spacing-6);",
    "  padding: 0;",
    "  background: var(--ds-color-borderStrong);",
    "  border: none;",
    "  border-radius: var(--ds-geometry-radius-full);",
    "  cursor: pointer;",
    "  transition: background-color 120ms ease;",
    "\x7d",
    "",
    ".track:focus-visible \x7b",
    "  outline: 2px solid var(--ds-color-focusRing);",
    "  outline-offset: 2px;",
    "\x7d",
    "",
    ".track:disabled \x7b",
    "  opacity: 0.5;",
    "  cursor: not-allowed;",
    "\x7d",
    "",
    ".thumb \x7b",
    "  position: absolute;",
    "  top: var(--ds-geometry-spacing-1);",
    "  left: var(--ds-geometry-spacing-1);",
    "  width: var(--ds-geometry-spacing-4);",
    "  height: var(--ds-geometry-spacing-4);",
    "  background: var(--ds-color-background);",
    "  border-radius: var(--ds-geometry-radius-full);",
    "  box-shadow: var(--ds-effect-shadow-sm);",
    "  transition: transform 120ms ease;",
    "\x7d",
    "",
    ".checked \x7b",
    "  background: var(--ds-color-primary);",
    "\x7d",
    "",
    ".checked .thumb \x7b",
    "  transform: translateX(var(--ds-geometry-spacing-4));",
    "\x7d"]
  element := Text.lines [
    "<label class=\"switch\">",
    "  <button",
    "    class=\"track $\x7bthis.checked ? 'checked' : ''\x7d\"",
    "    type=\"button\"",
    "    role=\"switch\"",
    "    aria-checked=\"$\x7bthis.checked\x7d\"",
    "    $\x7bthis.disabled ? 'disabled' : ''\x7d",
    "  >",
    "    <span class=\"thumb\"></span>",
    "  </button>",
    "  <span>$\x7bescapeHtml(this.label)\x7d</span>",
    "</label>"]
  reactView := Text.lines [
    "const [isChecked, setChecked] = useState(checked);",
    "",
    "useEffect(() => \x7b",
    "  setChecked(checked);",
    "\x7d, [checked]);",
    "",
    "const toggle = () => \x7b",
    "  const next = !isChecked;",
    "  setChecked(next);",
    "  onCheckedChange?.(next);",
    "\x7d;",
    "",
    "return (",
    "  <label className=\x7bcx(styles.switch, className)\x7d>",
    "    <button",
    "      className=\x7bcx(styles.track, isChecked && styles.checked)\x7d",
    "      type=\"button\"",
    "      role=\"switch\"",
    "      aria-checked=\x7bisChecked\x7d",
    "      disabled=\x7bdisabled\x7d",
    "      onClick=\x7btoggle\x7d",
    "    >",
    "      <span className=\x7bstyles.thumb\x7d />",
    "    </button>",
    "    <span>\x7blabel\x7d</span>",
    "  </label>",
    ");"]
  angularView := Text.lines [
    "<label class=\"switch\">",
    "  <button",
    "    class=\"track\"",
    "    [class.checked]=\"checked\"",
    "    type=\"button\"",
    "    role=\"switch\"",
    "    [attr.aria-checked]=\"checked\"",
    "    [disabled]=\"disabled\"",
    "    (click)=\"checked = !checked; checkedChange.emit(checked)\"",
    "  >",
    "    <span class=\"thumb\"></span>",
    "  </button>",
    "  <span>\x7b\x7b label \x7d\x7d</span>",
    "</label>"]
  elementMembers := none
  angularMembers := none

end DesignSystem.Fragments
