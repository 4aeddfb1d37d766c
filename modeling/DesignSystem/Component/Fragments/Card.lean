import DesignSystem.Component.Fragments.Basic
/-!
# Fragments of the card
-/

namespace DesignSystem.Fragments

/-- The fragments of the card. -/
def card : Fragments where
  styles := Text.lines [
    ".card \x7b",
    "  display: flex;",
    "  flex-direction: column;",
    "  gap: var(--ds-geometry-spacing-3);",
    "  padding: var(--ds-geometry-spacing-6);",
    "  color: var(--ds-color-text);",
    "  background: var(--ds-color-surface);",
    "  border: var(--ds-geometry-border-width) solid var(--ds-color-border);",
    "  border-radius: var(--ds-geometry-radius-lg);",
    "\x7d",
    "",
    ".elevated \x7b",
    "  border-color: transparent;",
    "  box-shadow: var(--ds-effect-shadow);",
    "\x7d",
    "",
    ".heading \x7b",
    "  margin: 0;",
    "  font-family: var(--ds-typography-variants-heading-fontFamily);",
    "  font-size: var(--ds-typography-fontSize-lg);",
    "  font-weight: var(--ds-typography-variants-heading-fontWeight);",
    "  line-height: var(--ds-typography-variants-heading-lineHeight);",
    "\x7d",
    "",
    ".subheading \x7b",
    "  margin: 0;",
    "  font-family: var(--ds-typography-variants-body-fontFamily);",
    "  font-size: var(--ds-typography-fontSize-sm);",
    "  color: var(--ds-color-textMuted);",
    "\x7d",
    "",
    ".body \x7b",
    "  font-family: var(--ds-typography-variants-body-fontFamily);",
    "  font-size: var(--ds-typography-variants-body-fontSize);",
    "  line-height: var(--ds-typography-variants-body-lineHeight);",
    "\x7d"]
  element := Text.lines [
    "<article class=\"card $\x7bthis.elevated ? 'elevated' : ''\x7d\" part=\"card\">",
    "  $\x7bthis.heading ? `<h3 class=\"heading\">$\x7bescapeHtml(this.heading)\x7d</h3>` : ''\x7d",
    "  $\x7bthis.subheading ? `<p class=\"subheading\">$\x7bescapeHtml(this.subheading)\x7d</p>` : ''\x7d",
    "  <div class=\"body\"><slot></slot></div>",
    "</article>"]
  reactView := Text.lines [
    "return (",
    "  <article className=\x7bcx(styles.card, elevated && styles.elevated, className)\x7d>",
    "    \x7bheading && <h3 className=\x7bstyles.heading\x7d>\x7bheading\x7d</h3>\x7d",
    "    \x7bsubheading && <p className=\x7bstyles.subheading\x7d>\x7bsubheading\x7d</p>\x7d",
    "    <div className=\x7bstyles.body\x7d>\x7bchildren\x7d</div>",
    "  </article>",
    ");"]
  angularView := Text.lines [
    "<article class=\"card\" [class.elevated]=\"elevated\">",
    "  <h3 *ngIf=\"heading\" class=\"heading\">\x7b\x7b heading \x7d\x7d</h3>",
    "  <p *ngIf=\"subheading\" class=\"subheading\">\x7b\x7b subheading \x7d\x7d</p>",
    "  <div class=\"body\"><ng-content></ng-content></div>",
    "</article>"]
  elementMembers := none
  angularMembers := none

end DesignSystem.Fragments
