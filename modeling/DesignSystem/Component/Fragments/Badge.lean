import DesignSystem.Component.Fragments.Basic
/-!
# Fragments of the badge
-/

namespace DesignSystem.Fragments

/-- The fragments of the badge. -/
def badge : Fragments where
  styles := Text.lines [
    ".badge \x7b",
    "  display: inline-flex;",
    "  align-items: center;",
    "  padding: 0 var(--ds-geometry-spacing-2);",
    "  font-family: var(--ds-typography-variants-caption-fontFamily);",
    "  font-size: var(--ds-typography-variants-caption-fontSize);",
    "  font-weight: var(--ds-typography-fontWeight-medium);",
    "  line-height: var(--ds-typography-lineHeight-normal);",
    "  border-radius: var(--ds-geometry-radius-full);",
    "  white-space: nowrap;",
    "\x7d",
    "",
    ".neutral \x7b",
    "  background: var(--ds-color-neutral-100);",
    "  color: var(--ds-color-neutral-700);",
    "\x7d",
    "",
    ".primary \x7b",
    "  background: var(--ds-color-primary-100);",
    "  color: var(--ds-color-primary-700);",
    "\x7d",
    "",
    ".success \x7b",
    "  background: var(--ds-color-success-100);",
    "  color: var(--ds-color-success-700);",
    "\x7d",
    "",
    ".warning \x7b",
    "  background: var(--ds-color-warning-100);",
    "  color: var(--ds-color-warning-800);",
    "\x7d",
    "",
    ".danger \x7b",
    "  background: var(--ds-color-danger-100);",
    "  color: var(--ds-color-danger-700);",
    "\x7d"]
  element := Text.lines [
    "<span class=\"badge $\x7bthis.variant\x7d\" part=\"badge\"><slot></slot></span>"]
  reactView := Text.lines [
    "return <span className=\x7bcx(styles.badge, styles[variant], className)\x7d>\x7bchildren\x7d</span>;"]
  angularView := Text.lines [
    "<span class=\"badge \x7b\x7b variant \x7d\x7d\"><ng-content></ng-content></span>"]
  elementMembers := none
  angularMembers := none

end DesignSystem.Fragments
