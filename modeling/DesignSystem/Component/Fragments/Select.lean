import DesignSystem.Component.Fragments.Basic
/-!
# Fragments of the select
-/

namespace DesignSystem.Fragments

/-- The fragments of the select. -/
def select : Fragments where
  styles := Text.lines [
    ".field \x7b",
    "  display: flex;",
    "  flex-direction: column;",
    "  gap: var(--ds-geometry-spacing-1);",
    "\x7d",
    "",
    ".label \x7b",
    "  font-family: var(--ds-typography-variants-label-fontFamily);",
    "  font-size: var(--ds-typography-variants-label-fontSize);",
    "  font-weight: var(--ds-typography-variants-label-fontWeight);",
    "  line-height: var(--ds-typography-variants-label-lineHeight);",
    "  color: var(--ds-color-text);",
    "\x7d",
    "",
    ".control \x7b",
    "  padding: var(--ds-geometry-spacing-2) var(--ds-geometry-spacing-3);",
    "  font-family: var(--ds-typography-variants-body-fontFamily);",
    "  font-size: var(--ds-typography-variants-body-fontSize);",
    "  line-height: var(--ds-typography-variants-body-lineHeight);",
    "  color: var(--ds-color-text);",
    "  background: var(--ds-color-background);",
    "  border: var(--ds-geometry-border-width) solid var(--ds-color-border);",
    "  border-radius: var(--ds-geometry-radius);",
    "  cursor: pointer;",
    "\x7d",
    "",
    ".control:focus \x7b",
    "  outline: none;",
    "  border-color: var(--ds-color-primary);",
    "  box-shadow: 0 0 0 2px var(--ds-color-focusRing);",
    "\x7d",
    "",
    ".control:disabled \x7b",
    "  background: var(--ds-color-surfaceMuted);",
    "  cursor: not-allowed;",
    "\x7d"]
  element := Text.lines [
    "<label class=\"field\">",
    "  $\x7bthis.label ? `<span class=\"label\">$\x7bescapeHtml(this.label)\x7d</span>` : ''\x7d",
    "  <select class=\"control\" $\x7bthis.disabled ? 'disabled' : ''\x7d>",
    "    $\x7bthis.placeholder ? `<option value=\"\" disabled $\x7bthis.value ? '' : 'selected'\x7d>$\x7bescapeHtml(this.placeholder)\x7d</option>` : ''\x7d",
    "    $\x7bthis.options",
    "      .map(",
    "        (option) =>",
    "          `<option value=\"$\x7bescapeHtml(option.value)\x7d\" $\x7boption.value === this.value ? 'selected' : ''\x7d>$\x7bescapeHtml(option.label)\x7d</option>`,",
    "      )",
    "      .join('')\x7d",
    "  </select>",
    "</label>"]
  reactView := Text.lines [
    "return (",
    "  <label className=\x7bcx(styles.field, className)\x7d>",
    "    \x7blabel && <span className=\x7bstyles.label\x7d>\x7blabel\x7d</span>\x7d",
    "    <select",
    "      className=\x7bstyles.control\x7d",
    "      defaultValue=\x7bvalue\x7d",
    "      disabled=\x7bdisabled\x7d",
    "      onChange=\x7b(event) => onValueChange?.(event.target.value)\x7d",
    "    >",
    "      \x7bplaceholder && (",
    "        <option value=\"\" disabled>",
    "          \x7bplaceholder\x7d",
    "        </option>",
    "      )\x7d",
    "      \x7boptions.map((option) => (",
    "        <option key=\x7boption.value\x7d value=\x7boption.value\x7d>",
    "          \x7boption.label\x7d",
    "        </option>",
    "      ))\x7d",
    "    </select>",
    "  </label>",
    ");"]
  angularView := Text.lines [
    "<label class=\"field\">",
    "  <span *ngIf=\"label\" class=\"label\">\x7b\x7b label \x7d\x7d</span>",
    "  <select",
    "    class=\"control\"",
    "    [disabled]=\"disabled\"",
    "    (change)=\"value = $any($event.target).value; valueChange.emit(value)\"",
    "  >",
    "    <option *ngIf=\"placeholder\" value=\"\" disabled [selected]=\"!value\">\x7b\x7b placeholder \x7d\x7d</option>",
    "    <option *ngFor=\"let option of options\" [value]=\"option.value\" [selected]=\"option.value === value\">",
    "      \x7b\x7b option.label \x7d\x7d",
    "    </option>",
    "  </select>",
    "</label>"]
  elementMembers := none
  angularMembers := none

end DesignSystem.Fragments
