import DesignSystem.Component.Fragments.Basic
/-!
# Fragments of the button
-/

namespace DesignSystem.Fragments

/-- The fragments of the button. -/
def button : Fragments where
  styles := Text.lines [
    ".button \x7b",
    "  display: inline-flex;",
    "  align-items: center;",
    "  justify-content: center;",
    "  gap: var(--ds-geometry-spacing-2);",
    "  padding: var(--ds-geometry-spacing-2) var(--ds-geometry-spacing-4);",
    "  font-family: var(--ds-typography-variants-label-fontFamily);",
    "  font-size: var(--ds-typography-variants-label-fontSize);",
    "  font-weight: var(--ds-typography-variants-label-fontWeight);",
    "  line-height: var(--ds-typography-variants-label-lineHeight);",
    "  border: var(--ds-geometry-border-width) solid transparent;",
    "  border-radius: var(--ds-geometry-radius);",
    "  cursor: pointer;",
    "  transition: background-color 120ms ease, border-color 120ms ease, color 120ms ease;",
    "\x7d",
    "",
    ".button:focus-visible \x7b",
    "  outline: 2px solid var(--ds-color-focusRing);",
    "  outline-offset: 2px;",
    "\x7d",
    "",
    ".button:disabled \x7b",
    "  opacity: 0.5;",
    "  cursor: not-allowed;",
    "\x7d",
    "",
    ".sm \x7b",
    "  padding: var(--ds-geometry-spacing-1) var(--ds-geometry-spacing-3);",
    "  font-size: var(--ds-typography-fontSize-xs);",
    "\x7d",
    "",
    ".lg \x7b",
    "  padding: var(--ds-geometry-spacing-3) var(--ds-geometry-spacing-6);",
    "  font-size: var(--ds-typography-fontSize-base);",
    "\x7d",
    "",
    ".primary \x7b",
    "  background: var(--ds-color-primary);",
    "  color: var(--ds-color-onPrimary);",
    "\x7d",
    "",
    ".primary:hover:not(:disabled) \x7b",
    "  background: var(--ds-color-primary-600);",
    "\x7d",
    "",
    ".secondary \x7b",
    "  background: var(--ds-color-secondary);",
    "  color: var(--ds-color-onPrimary);",
    "\x7d",
    "",
    ".secondary:hover:not(:disabled) \x7b",
    "  background: var(--ds-color-secondary-600);",
    "\x7d",
    "",
    ".outline \x7b",
    "  background: transparent;",
    "  border-color: var(--ds-color-borderStrong);",
    "  color: var(--ds-color-text);",
    "\x7d",
    "",
    ".outline:hover:not(:disabled),",
    ".ghost:hover:not(:disabled) \x7b",
    "  background: var(--ds-color-surfaceMuted);",
    "\x7d",
    "",
    ".ghost \x7b",
    "  background: transparent;",
    "  color: var(--ds-color-text);",
    "\x7d",
    "",
    ".danger \x7b",
    "  background: var(--ds-color-danger);",
    "  color: var(--ds-color-onPrimary);",
    "\x7d",
    "",
    ".danger:hover:not(:disabled) \x7b",
    "  background: var(--ds-color-danger-600);",
    "\x7d"]
  element := Text.lines [
    "<button class=\"button $\x7bthis.variant\x7d $\x7bthis.size\x7d\" type=\"button\" part=\"button\" $\x7bthis.disabled ? 'disabled' : ''\x7d>",
    "  <slot></slot>",
    "</button>"]
  reactView := Text.lines [
    "return (",
    "  <button",
    "    type=\"button\"",
    "    className=\x7bcx(styles.button, styles[variant], styles[size], className)\x7d",
    "    disabled=\x7bdisabled\x7d",
    "    onClick=\x7b() => onPress?.(null)\x7d",
    "  >",
    "    \x7bchildren\x7d",
    "  </button>",
    ");"]
  angularView := Text.lines [
    "<button class=\"button \x7b\x7b variant \x7d\x7d \x7b\x7b size \x7d\x7d\" type=\"button\" [disabled]=\"disabled\" (click)=\"press.emit()\">",
    "  <ng-content></ng-content>",
    "</button>"]
  elementMembers := none
  angularMembers := none

end DesignSystem.Fragments
