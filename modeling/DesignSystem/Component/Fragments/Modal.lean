import DesignSystem.Component.Fragments.Basic
/-!
# Fragments of the modal
-/

namespace DesignSystem.Fragments

/-- The fragments of the modal. -/
def modal : Fragments where
  styles := Text.lines [
    ".root \x7b",
    "  position: fixed;",
    "  inset: 0;",
    "  z-index: 50;",
    "  display: flex;",
    "  align-items: center;",
    "  justify-content: center;",
    "  padding: var(--ds-geometry-spacing-4);",
    "\x7d",
    "",
    ".backdrop \x7b",
    "  position: absolute;",
    "  inset: 0;",
    "  background: rgb(0 0 0 / 0.5);",
    "\x7d",
    "",
    ".dialog \x7b",
    "  position: relative;",
    "  display: flex;",
    "  flex-direction: column;",
    "  gap: var(--ds-geometry-spacing-4);",
    "  width: 100%;",
    "  max-width: calc(var(--ds-geometry-spacing-16) * 8);",
    "  padding: var(--ds-geometry-spacing-6);",
    "  color: var(--ds-color-text);",
    "  background: var(--ds-color-surface);",
    "  border-radius: var(--ds-geometry-radius-xl);",
    "  box-shadow: var(--ds-effect-shadow-xl);",
    "\x7d",
    "",
    ".header \x7b",
    "  display: flex;",
    "  align-items: center;",
    "  justify-content: space-between;",
    "  gap: var(--ds-geometry-spacing-4);",
    "\x7d",
    "",
    ".heading \x7b",
    "  margin: 0;",
    "  font-family: var(--ds-typography-variants-heading-fontFamily);",
    "  font-size: var(--ds-typography-variants-heading-fontSize);",
    "  font-weight: var(--ds-typography-variants-heading-fontWeight);",
    "  line-height: var(--ds-typography-variants-heading-lineHeight);",
    "\x7d",
    "",
    ".close \x7b",
    "  padding: 0;",
    "  font-size: var(--ds-typography-fontSize-xl);",
    "  line-height: var(--ds-typography-lineHeight-tight);",
    "  color: var(--ds-color-textMuted);",
    "  background: transparent;",
    "  border: none;",
    "  cursor: pointer;",
    "\x7d",
    "",
    ".close:hover \x7b",
    "  color: var(--ds-color-text);",
    "\x7d",
    "",
    ".body \x7b",
    "  font-family: var(--ds-typography-variants-body-fontFamily);",
    "  font-size: var(--ds-typography-variants-body-fontSize);",
    "  line-height: var(--ds-typography-variants-body-lineHeight);",
    "\x7d"]
  element := Text.lines [
    "$\x7bthis.open",
    "  ? `<div class=\"root\">",
    "      <div class=\"backdrop\" data-dismiss></div>",
    "      <div class=\"dialog\" role=\"dialog\" aria-modal=\"true\" part=\"dialog\">",
    "        <header class=\"header\">",
    "          <h2 class=\"heading\">$\x7bescapeHtml(this.heading)\x7d</h2>",
    "          <button class=\"close\" type=\"button\" aria-label=\"Close\" data-dismiss>&times;</button>",
    "        </header>",
    "        <div class=\"body\"><slot></slot></div>",
    "      </div>",
    "    </div>`",
    "  : ''\x7d"]
  reactView := Text.lines [
    "if (!open) \x7b",
    "  return null;",
    "\x7d",
    "",
    "return (",
    "  <div className=\x7bcx(styles.root, className)\x7d>",
    "    <div className=\x7bstyles.backdrop\x7d onClick=\x7b() => onDismiss?.(null)\x7d />",
    "    <div className=\x7bstyles.dialog\x7d role=\"dialog\" aria-modal=\"true\">",
    "      <header className=\x7bstyles.header\x7d>",
    "        <h2 className=\x7bstyles.heading\x7d>\x7bheading\x7d</h2>",
    "        <button",
    "          className=\x7bstyles.close\x7d",
    "          type=\"button\"",
    "          aria-label=\"Close\"",
    "          onClick=\x7b() => onDismiss?.(null)\x7d",
    "        >",
    "          &times;",
    "        </button>",
    "      </header>",
    "      <div className=\x7bstyles.body\x7d>\x7bchildren\x7d</div>",
    "    </div>",
    "  </div>",
    ");"]
  angularView := Text.lines [
    "<div *ngIf=\"open\" class=\"root\">",
    "  <div class=\"backdrop\" (click)=\"open = false; dismiss.emit()\"></div>",
    "  <div class=\"dialog\" role=\"dialog\" aria-modal=\"true\">",
    "    <header class=\"header\">",
    "      <h2 class=\"heading\">\x7b\x7b heading \x7d\x7d</h2>",
    "      <button class=\"close\" type=\"button\" aria-label=\"Close\" (click)=\"open = false; dismiss.emit()\">",
    "        &times;",
    "      </button>",
    "    </header>",
    "    <div class=\"body\"><ng-content></ng-content></div>",
    "  </div>",
    "</div>"]
  elementMembers := none
  angularMembers := none

end DesignSystem.Fragments
