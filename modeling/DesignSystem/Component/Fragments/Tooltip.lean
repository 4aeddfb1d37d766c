import DesignSystem.Component.Fragments.Basic
/-!
# Fragments of the tooltip
-/

namespace DesignSystem.Fragments

/-- The fragments of the tooltip. -/
def tooltip : Fragments where
  styles := Text.lines [
    ".tooltip \x7b",
    "  position: relative;",
    "  display: inline-block;",
    "\x7d",
    "",
    ".bubble \x7b",
    "  position: absolute;",
    "  z-index: 10;",
    "  padding: var(--ds-geometry-spacing-1) var(--ds-geometry-spacing-2);",
    "  font-family: var(--ds-typography-variants-caption-fontFamily);",
    "  font-size: var(--ds-typography-variants-caption-fontSize);",
    "  line-height: var(--ds-typography-variants-caption-lineHeight);",
    "  color: var(--ds-color-neutral-50);",
    "  white-space: nowrap;",
    "  background: var(--ds-color-neutral-900);",
    "  border-radius: var(--ds-geometry-radius-sm);",
    "  box-shadow: var(--ds-effect-shadow-md);",
    "  opacity: 0;",
    "  visibility: hidden;",
    "  pointer-events: none;",
    "  transition: opacity 120ms ease;",
    "\x7d",
    "",
    ".tooltip:hover .bubble,",
    ".tooltip:focus-within .bubble \x7b",
    "  opacity: 1;",
    "  visibility: visible;",
    "\x7d",
    "",
    ".top \x7b",
    "  bottom: calc(100% + var(--ds-geometry-spacing-1));",
    "  left: 50%;",
    "  transform: translateX(-50%);",
    "\x7d",
    "",
    ".bottom \x7b",
    "  top: calc(100% + var(--ds-geometry-spacing-1));",
    "  left: 50%;",
    "  transform: translateX(-50%);",
    "\x7d",
    "",
    ".left \x7b",
    "  top: 50%;",
    "  right: calc(100% + var(--ds-geometry-spacing-1));",
    "  transform: translateY(-50%);",
    "\x7d",
    "",
    ".right \x7b",
    "  top: 50%;",
    "  left: calc(100% + var(--ds-geometry-spacing-1));",
    "  transform: translateY(-50%);",
    "\x7d"]
  element := Text.lines [
    "<span class=\"tooltip\">",
    "  <slot></slot>",
    "  <span class=\"bubble $\x7bthis.placement\x7d\" role=\"tooltip\" part=\"bubble\">$\x7bescapeHtml(this.text)\x7d</span>",
    "</span>"]
  reactView := Text.lines [
    "return (",
    "  <span className=\x7bcx(styles.tooltip, className)\x7d>",
    "    \x7bchildren\x7d",
    "    <span className=\x7bcx(styles.bubble, styles[placement])\x7d role=\"tooltip\">",
    "      \x7btext\x7d",
    "    </span>",
    "  </span>",
    ");"]
  angularView := Text.lines [
    "<span class=\"tooltip\">",
    "  <ng-content></ng-content>",
    "  <span class=\"bubble \x7b\x7b placement \x7d\x7d\" role=\"tooltip\">\x7b\x7b text \x7d\x7d</span>",
    "</span>"]
  elementMembers := none
  angularMembers := none

end DesignSystem.Fragments
