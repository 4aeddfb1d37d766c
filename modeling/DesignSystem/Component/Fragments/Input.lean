import DesignSystem.Component.Fragments.Basic
/-!
# Fragments of the input
-/

namespace DesignSystem.Fragments

/-- The fragments of the input. -/
def input : Fragments where
  styles := Text.lines [
    ".field \x7b",
    "  display: flex;",
    "  flex-direction: column;",
    "  gap: var(--ds-geometry-spacing-1);",
    "\x7d",
    "",
    ".label \x7b",
    "  font-family: var(--ds-typography-variants-label-fontFamily);",
    "  font-size: var(--ds-typography-variants-label-fontSize);",
    "  font-weight: var(--ds-typography-variants-label-fontWeight);",
    "  line-height: var(--ds-typography-variants-label-lineHeight);",
    "  color: var(--ds-color-text);",
    "\x7d",
    "",
    ".control \x7b",
    "  padding: var(--ds-geometry-spacing-2) var(--ds-geometry-spacing-3);",
    "  font-family: var(--ds-typography-variants-body-fontFamily);",
    "  font-size: var(--ds-typography-variants-body-fontSize);",
    "  line-height: var(--ds-typography-variants-body-lineHeight);",
    "  color: var(--ds-color-text);",
    "  background: var(--ds-color-background);",
    "  border: var(--ds-geometry-border-width) solid var(--ds-color-border);",
    "  border-radius: var(--ds-geometry-radius);",
    "\x7d",
    "",
    ".control::placeholder \x7b",
    "  color: var(--ds-color-textMuted);",
    "\x7d",
    "",
    ".control:focus \x7b",
    "  outline: none;",
    "  border-color: var(--ds-color-primary);",
    "  box-shadow: 0 0 0 2px var(--ds-color-focusRing);",
    "\x7d",
    "",
    ".control:disabled \x7b",
    "  background: var(--ds-color-surfaceMuted);",
    "  cursor: not-allowed;",
    "\x7d",
    "",
    ".hint \x7b",
    "  font-family: var(--ds-typography-variants-caption-fontFamily);",
    "  font-size: var(--ds-typography-variants-caption-fontSize);",
    "  line-height: var(--ds-typography-variants-caption-lineHeight);",
    "  color: var(--ds-color-textMuted);",
    "\x7d",
    "",
    ".invalid .control \x7b",
    "  border-color: var(--ds-color-danger);",
    "\x7d",
    "",
    ".invalid .hint \x7b",
    "  color: var(--ds-color-danger);",
    "\x7d"]
  element := Text.lines [
    "<label class=\"field $\x7bthis.invalid ? 'invalid' : ''\x7d\">",
    "  $\x7bthis.label ? `<span class=\"label\">$\x7bescapeHtml(this.label)\x7d</span>` : ''\x7d",
    "  <input",
    "    class=\"control\"",
    "    type=\"$\x7bthis.type\x7d\"",
    "    value=\"$\x7bescapeHtml(this.value)\x7d\"",
    "    placeholder=\"$\x7bescapeHtml(this.placeholder)\x7d\"",
    "    aria-invalid=\"$\x7bthis.invalid\x7d\"",
    "    $\x7bthis.disabled ? 'disabled' : ''\x7d",
    "  />",
    "  $\x7bthis.hint ? `<span class=\"hint\">$\x7bescapeHtml(this.hint)\x7d</span>` : ''\x7d",
    "</label>"]
  reactView := Text.lines [
    "return (",
    "  <label className=\x7bcx(styles.field, invalid && styles.invalid, className)\x7d>",
    "    \x7blabel && <span className=\x7bstyles.label\x7d>\x7blabel\x7d</span>\x7d",
    "    <input",
    "      className=\x7bstyles.control\x7d",
    "      type=\x7btype\x7d",
    "      defaultValue=\x7bvalue\x7d",
    "      placeholder=\x7bplaceholder\x7d",
    "      aria-invalid=\x7binvalid\x7d",
    "      disabled=\x7bdisabled\x7d",
    "      onChange=\x7b(event) => onValueChange?.(event.target.value)\x7d",
    "    />",
    "    \x7bhint && <span className=\x7bstyles.hint\x7d>\x7bhint\x7d</span>\x7d",
    "  </label>",
    ");"]
  angularView := Text.lines [
    "<label class=\"field\" [class.invalid]=\"invalid\">",
    "  <span *ngIf=\"label\" class=\"label\">\x7b\x7b label \x7d\x7d</span>",
    "  <input",
    "    class=\"control\"",
    "    [type]=\"type\"",
    "    [value]=\"value\"",
    "    [placeholder]=\"placeholder\"",
    "    [attr.aria-invalid]=\"invalid\"",
    "    [disabled]=\"disabled\"",
    "    (input)=\"value = $any($event.target).value; valueChange.emit(value)\"",
    "  />",
    "  <span *ngIf=\"hint\" class=\"hint\">\x7b\x7b hint \x7d\x7d</span>",
    "</label>"]
  elementMembers := none
  angularMembers := none

end DesignSystem.Fragments
